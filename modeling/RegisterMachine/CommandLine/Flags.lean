import RegisterMachine.Text.Decimal
import RegisterMachine.Text.Literal
import RegisterMachine.Text.Quoted

/-!
# Flags

Flags come before the other arguments, with one dash or two. A flag that takes a value has it after
an equals sign or as the next argument; a switch takes one only after an equals sign. If a flag is
given twice the last value counts.
-/

set_option autoImplicit false

namespace RegisterMachine.CommandLine

inductive FlagValue where
  | text (s : String)
  | number (n : Int64)
  | switch (b : Bool)
  deriving DecidableEq, Repr, Inhabited

structure Flag where
  name : String
  /-- The value if the flag is not given, which also tells its type. -/
  default : FlagValue
  help : String
  deriving DecidableEq, Repr, Inhabited

inductive FlagError where
  | badSyntax (argument : String)
  | undefined (name : String)
  | needsArgument (name : String)
  | badNumber (value name : String) (reason : Literal.Misread)
  | badSwitch (value name : String)
  | helpRequested
  deriving DecidableEq, Repr, Inhabited

def FlagError.message : FlagError → String
  | .badSyntax argument => "bad flag syntax: " ++ argument
  | .undefined name => "flag provided but not defined: -" ++ name
  | .needsArgument name => "flag needs an argument: -" ++ name
  | .badNumber value name .malformed =>
    "invalid value " ++ Quoted.text value ++ " for flag -" ++ name ++ ": parse error"
  | .badNumber value name .outOfRange =>
    "invalid value " ++ Quoted.text value ++ " for flag -" ++ name ++ ": value out of range"
  | .badSwitch value name =>
    "invalid boolean value " ++ Quoted.text value ++ " for -" ++ name ++ ": parse error"
  | .helpRequested => "flag: help requested"

/-- What is shown above the usage; nothing if only help was asked for. -/
def FlagError.notice : FlagError → String
  | .helpRequested => ""
  | e => e.message ++ "\n"

/-- What a single argument is. -/
inductive Argument where
  | plain
  /-- Two dashes, after which no flags follow. -/
  | ending
  | malformed
  | flag (name : String) (value : Option String)
  deriving DecidableEq, Repr, Inhabited

/-- The name of a flag and its value after the first equals sign. -/
def splitFlag (chars : List Char) : Argument :=
  match chars with
  | [] => .malformed
  | c :: rest =>
    if c = '-' ∨ c = '=' then .malformed
    else
      let name := String.ofList (c :: rest.takeWhile (· != '='))
      match rest.dropWhile (· != '=') with
      | [] => .flag name none
      | _ :: value => .flag name (some (String.ofList value))

def Argument.ofText (s : String) : Argument :=
  match s.toList with
  | ['-'] => .plain
  | ['-', '-'] => .ending
  | '-' :: '-' :: rest => splitFlag rest
  | '-' :: rest => splitFlag rest
  | _ => .plain

def readSwitch (s : String) : Option Bool :=
  if s ∈ ["1", "t", "T", "TRUE", "true", "True"] then some true
  else if s ∈ ["0", "f", "F", "FALSE", "false", "False"] then some false
  else none

/-- Reads a value of the flag's type. -/
def Flag.read (f : Flag) (value : String) : Except FlagError FlagValue :=
  match f.default with
  | .text _ => .ok (.text value)
  | .number _ =>
    match Literal.readInt64 value with
    | .ok n => .ok (.number n)
    | .error reason => .error (.badNumber value f.name reason)
  | .switch _ =>
    match readSwitch value with
    | some b => .ok (.switch b)
    | none => .error (.badSwitch value f.name)

def Flag.isSwitch (f : Flag) : Bool :=
  match f.default with
  | .switch _ => true
  | _ => false

structure Arguments where
  /-- The flags that were given, the last first. -/
  given : List (String × FlagValue) := []
  rest : List String := []
  deriving DecidableEq, Repr, Inhabited

/-- Reads arguments after the flags in `given`. -/
def readArguments (flags : List Flag) :
    List (String × FlagValue) → List String → Except FlagError Arguments
  | given, [] => .ok { given, rest := [] }
  | given, argument :: rest =>
    match Argument.ofText argument with
    | .plain => .ok { given, rest := argument :: rest }
    | .ending => .ok { given, rest }
    | .malformed => .error (.badSyntax argument)
    | .flag name value =>
      match flags.find? (·.name == name) with
      | none =>
        if name = "help" ∨ name = "h" then .error .helpRequested else .error (.undefined name)
      | some f =>
        match value with
        | some value =>
          match f.read value with
          | .error e => .error e
          | .ok v => readArguments flags ((name, v) :: given) rest
        | none =>
          if f.isSwitch then readArguments flags ((name, .switch true) :: given) rest
          else
            match rest with
            | [] => .error (.needsArgument name)
            | value :: rest =>
              match f.read value with
              | .error e => .error e
              | .ok v => readArguments flags ((name, v) :: given) rest

namespace Arguments

def ofList (flags : List Flag) (arguments : List String) : Except FlagError Arguments :=
  readArguments flags [] arguments

/-- The text given for a flag. -/
def text? (a : Arguments) (name : String) : Option String :=
  match a.given.lookup name with
  | some (.text s) => some s
  | _ => none

/-- The number given for a flag. -/
def number? (a : Arguments) (name : String) : Option Int64 :=
  match a.given.lookup name with
  | some (.number n) => some n
  | _ => none

/-- Whether a switch is on. -/
def isOn (a : Arguments) (name : String) : Bool :=
  a.given.lookup name == some (.switch true)

end Arguments

/-- The two lines about a flag: its name and type, and its help with the default unless that is
empty. -/
def Flag.usage (f : Flag) : String :=
  let (type, default) :=
    match f.default with
    | .text "" => (" string", "")
    | .text s => (" string", " (default " ++ Quoted.text s ++ ")")
    | .number n => (" int", " (default " ++ Decimal.ofInt64 n ++ ")")
    | .switch _ => ("", "")
  "  -" ++ f.name ++ type ++ "\n    \t" ++ f.help ++ default ++ "\n"

/-- The usage of all flags. -/
def usage (flags : List Flag) : String :=
  flags.foldl (fun text f => text ++ f.usage) ""

end RegisterMachine.CommandLine
