import RegisterMachine.Machine.Step
import RegisterMachine.Text.CaseFold
import RegisterMachine.Text.Hex

/-!
# The journal of a run

What a run tells about itself: when it starts, each executed instruction, and how it ends. A line
names its level, a message and the values that belong to it, and is written if its level reaches
that of the journal. On a terminal, the name of the level has a color.
-/

set_option autoImplicit false

namespace RegisterMachine.Journal

inductive Level where
  | debug
  | info
  | warn
  | error
  | dpanic
  | panic
  | fatal
  deriving DecidableEq, Repr, Inhabited

namespace Level

def all : List Level :=
  [.debug, .info, .warn, .error, .dpanic, .panic, .fatal]

def rank : Level → Nat
  | .debug => 0
  | .info => 1
  | .warn => 2
  | .error => 3
  | .dpanic => 4
  | .panic => 5
  | .fatal => 6

def name : Level → String
  | .debug => "debug"
  | .info => "info"
  | .warn => "warn"
  | .error => "error"
  | .dpanic => "dpanic"
  | .panic => "panic"
  | .fatal => "fatal"

/-- The level with this name in any case; the empty name is that of `info`. -/
def ofName? (name : String) : Option Level :=
  if name = "" then some .info
  else all.find? fun level => level.name.toList == name.toList.map CaseFold.lower

/-- The number of the color in which a terminal shows the level. -/
def color : Level → Nat
  | .debug => 35
  | .info => 34
  | .warn => 33
  | _ => 31

/-- The name of the level in a line, in its color or plain. -/
def label (colored : Bool) (level : Level) : String :=
  let name := String.ofList (level.name.toList.map Char.toUpper)
  if colored then "\x1b[" ++ Decimal.ofNat level.color ++ "m" ++ name ++ "\x1b[0m" else name

def unknownMessage (name : String) : String :=
  "unrecognized level: " ++ Quoted.text name

end Level

inductive Value where
  | text (s : String)
  | number (n : Int)
  deriving DecidableEq, Repr, Inhabited

structure Entry where
  level : Level
  message : String
  fields : List (String × Value)
  deriving DecidableEq, Repr, Inhabited

/-- Quotes and backslashes are escaped, and so are the control characters below the space. -/
def escape (c : Char) : List Char :=
  match c with
  | '"' => ['\\', '"']
  | '\\' => ['\\', '\\']
  | '\n' => ['\\', 'n']
  | '\r' => ['\\', 'r']
  | '\t' => ['\\', 't']
  | c => if c.toNat < 0x20 then '\\' :: 'u' :: Hex.padded 4 c.toNat else [c]

def quote (s : String) : String :=
  "\"" ++ String.ofList (s.toList.flatMap escape) ++ "\""

def Value.write : Value → String
  | .text s => quote s
  | .number n => Decimal.ofInt n

/-- The line without the time at its start. -/
def Entry.line (colored : Bool) (e : Entry) : String :=
  let fields := e.fields.map fun (key, value) => quote key ++ ": " ++ value.write
  e.level.label colored ++ "\t" ++ e.message ++ "\t\x7b" ++ ", ".intercalate fields ++ "\x7d"

/-- The fields of a line about the run as a whole, which names the program if there is one. -/
def titled (program run : String) (fields : List (String × Value)) : List (String × Value) :=
  (if program = "" then [] else [("program", .text program)]) ++ ("run", .text run) :: fields

/-- What a run writes about an event. -/
def entries (program run : String) : Event → List Entry
  | .began size length _ =>
    [{ level := .info, message := "run started",
       fields := titled program run [("mem", .number size), ("code", .number length)] }]
  | .executed pc i view =>
    let shown (r : Register) : Value := .text (Word.text (view.registers.get r))
    [{ level := .debug, message := "step",
       fields := [("run", .text run), ("pc", .number pc.toInt), ("instr", .text i.text),
         ("sp", shown .sp), ("hp", shown .hp), ("a0", shown .a0)] }]
  | .ended none view =>
    [{ level := .info, message := "run halted",
       fields := titled program run [("steps", .number view.steps)] }]
  | .ended (some fault) view =>
    [{ level := .warn, message := "run faulted",
       fields := titled program run [("steps", .number view.steps), ("kind", .text fault.kind.name),
         ("pc", .number fault.pc.toInt),
         ("error", .text ((fault.cause.map Cause.message).getD ""))] }]
  | _ => []

/-- What is written about a run whose record could not be kept. -/
def recordFailure (message : String) : Entry :=
  { level := .error, message := "trace store", fields := [("error", .text message)] }

/-- The lines of the entries that a journal of this level keeps. -/
def write (colored : Bool) (level : Level) (entries : List Entry) : List String :=
  (entries.filter fun e => level.rank ≤ e.level.rank).map (Entry.line colored)

/-- The lines about the events of a run. -/
def lines (colored : Bool) (level : Level) (program run : String) (events : List Event) :
    List String :=
  write colored level (events.flatMap (entries program run))

end RegisterMachine.Journal
