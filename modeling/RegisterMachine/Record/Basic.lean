import RegisterMachine.Fault

/-!
# Records of runs

An archive is a database with two tables. A record consists of one row about the run, which says how
it ended, and one row for each instruction that executed without a fault, with the state after it.
There is at most one row for each run.
-/

set_option autoImplicit false

namespace RegisterMachine

/-- The name of a run, which no other run has. -/
abbrev RunId := String

inductive Outcome where
  /-- The run is not over. -/
  | running
  | halted
  /-- A fault of this kind, or a failure that has no kind. -/
  | faulted (kind : Option FaultKind)
  deriving DecidableEq, Repr, Inhabited

namespace Outcome

def name : Outcome → String
  | .running => "running"
  | .halted => "halted"
  | .faulted _ => "faulted"

/-- The name of the kind of fault, empty if there is none. -/
def faultKind : Outcome → String
  | .faulted (some kind) => kind.name
  | _ => ""

/-- The outcome of a run that ended with this fault, or without one. -/
def ofFault : Option Fault → Outcome
  | none => .halted
  | some f => .faulted (some f.kind)

end Outcome

structure RunRow where
  id : RunId
  memSize : Nat
  codeLength : Nat
  /-- How many instructions were fetched, once the run is over. -/
  steps : Nat := 0
  outcome : Outcome := .running
  deriving DecidableEq, Repr, Inhabited

/-- The state after one executed instruction. -/
structure StepRow where
  seq : Nat
  pc : Int64
  op : String
  sp : Word
  hp : Word
  a0 : Word
  deriving DecidableEq, Repr, Inhabited

structure Archive where
  runs : List RunRow := []
  /-- The rows of all runs, each with the run it belongs to. -/
  steps : Array (RunId × StepRow) := #[]
  deriving DecidableEq, Repr, Inhabited

namespace Archive

def find? (a : Archive) (id : RunId) : Option RunRow :=
  a.runs.find? fun row => row.id == id

def contains (a : Archive) (id : RunId) : Bool :=
  (a.find? id).isSome

/-- The recorded steps of a run by their numbers; none for a run that was not recorded. -/
def rows (a : Archive) (id : RunId) : List StepRow :=
  let own := a.steps.toList.filter fun entry => entry.1 == id
  (own.map Prod.snd).mergeSort fun x y => decide (x.seq ≤ y.seq)

def insertRun (a : Archive) (row : RunRow) : Archive :=
  { a with runs := a.runs ++ [row] }

def insertStep (a : Archive) (id : RunId) (row : StepRow) : Archive :=
  { a with steps := a.steps.push (id, row) }

/-- Says how a run has ended. -/
def finishRun (a : Archive) (id : RunId) (steps : Nat) (outcome : Outcome) : Archive :=
  let finish (row : RunRow) : RunRow := if row.id = id then { row with steps, outcome } else row
  { a with runs := a.runs.map finish }

end Archive

end RegisterMachine
