import RegisterMachine.Files.Tree
import RegisterMachine.Machine.Dump
import RegisterMachine.Text.Literal

/-!
# Settings

What can be set about a run, and how the environment overrides it. A setting is checked only when all
sources have been merged, so a bad value that is overridden does no harm.
-/

set_option autoImplicit false

namespace RegisterMachine

structure Settings where
  /-- The number of cells of the arena. -/
  memSize : Int64 := 10000
  /-- The name of the dump mode. -/
  trace : String := "off"
  logLevel : String := "info"
  /-- The path of the database that records the run; empty for none. -/
  traceDb : String := ""
  /-- The directory of the settings file; empty if none was read. -/
  dir : String := ""
  deriving DecidableEq, Repr, Inhabited

inductive SettingsError where
  /-- The settings file cannot be read. -/
  | unreadable (path : String) (e : FileError)
  /-- The settings file is not well-formed, or gives a setting a value of the wrong type. -/
  | malformed (path : String)
  | negativeMemSize (n : Int64)
  | unknownTrace (name : String)
  deriving DecidableEq, Repr, Inhabited

def SettingsError.message : SettingsError → String
  | .unreadable path e => "cannot read " ++ path ++ ": " ++ e.message
  | .malformed path => "parse error in " ++ path
  | .negativeMemSize n => "mem-size must not be negative, got " ++ Decimal.ofInt64 n
  | .unknownTrace name => TraceMode.unknownMessage name

/-- Variables with their values. -/
abbrev Environment := List (String × String)

namespace Environment

/-- The text of a variable; `fallback` if it is unset or empty. -/
def textOr (env : Environment) (name fallback : String) : String :=
  match env.lookup name with
  | none => fallback
  | some value => if value = "" then fallback else value

/-- The number in a variable; `fallback` if it is unset or denotes none. -/
def numberOr (env : Environment) (name : String) (fallback : Int64) : Int64 :=
  match env.lookup name with
  | none => fallback
  | some value =>
    match Literal.readInt64 value with
    | .ok n => n
    | .error _ => fallback

end Environment

namespace Settings

def override (s : Settings) (env : Environment) : Settings :=
  { s with
    memSize := env.numberOr "SVM_MEM_SIZE" s.memSize
    trace := env.textOr "SVM_TRACE" s.trace
    logLevel := env.textOr "SVM_LOG_LEVEL" s.logLevel
    traceDb := env.textOr "SVM_TRACE_DB" s.traceDb }

def traceMode (s : Settings) : Except SettingsError TraceMode :=
  match TraceMode.ofName? s.trace with
  | some mode => .ok mode
  | none => .error (.unknownTrace s.trace)

/-- The first invalid setting is an error. -/
def validate (s : Settings) : Except SettingsError Unit :=
  if s.memSize < 0 then .error (.negativeMemSize s.memSize)
  else s.traceMode.map fun _ => ()

end Settings

end RegisterMachine
