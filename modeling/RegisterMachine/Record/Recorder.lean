import RegisterMachine.Machine.Step
import RegisterMachine.Record.Basic

/-!
# Recorders

A recorder follows a run and writes its record into an archive in one transaction, which is open from
the start of the run to its end. Until then the tables are changed in a draft, and only the last
statement, the commit, puts the draft in the place of the archive. The archive may refuse any
statement. A recorder keeps the first refusal, drops its draft and issues no statement after that.
-/

set_option autoImplicit false

namespace RegisterMachine

/-- What a recorder asks of an archive. -/
inductive Statement where
  | openDraft (id : RunId)
  | insertRun (row : RunRow)
  | prepareSteps
  | insertStep (id : RunId) (row : StepRow)
  | finishRun (id : RunId) (steps : Nat) (outcome : Outcome)
  | commit (id : RunId)
  deriving DecidableEq, Repr, Inhabited

def Statement.text : Statement → String
  | .openDraft id => "begin run " ++ id
  | .insertRun row => "insert run " ++ row.id
  | .prepareSteps => "prepare steps"
  | .insertStep _ row => "insert step " ++ Decimal.ofNat row.seq
  | .finishRun id _ _ => "finish run " ++ id
  | .commit id => "commit run " ++ id

inductive Refusal where
  /-- The store of the archive has been closed. -/
  | closed
  /-- The archive already has a record of the run. -/
  | duplicate
  /-- Another draft is open on the archive. -/
  | locked
  /-- The archive may only be read. -/
  | readOnly
  /-- A transaction is already open on the same connection. -/
  | nested
  | other (text : String)
  deriving DecidableEq, Repr, Inhabited

def Refusal.text : Refusal → String
  | .closed => "sql: database is closed"
  | .duplicate => "constraint failed: UNIQUE constraint failed: runs.id (1555)"
  | .locked => "database is locked (5) (SQLITE_BUSY)"
  | .readOnly => "attempt to write a readonly database (8)"
  | .nested => "SQL logic error: cannot start a transaction within a transaction (1)"
  | .other text => text

structure RecordError where
  statement : Statement
  refusal : Refusal
  deriving DecidableEq, Repr, Inhabited

def RecordError.message (e : RecordError) : String :=
  e.statement.text ++ ": " ++ e.refusal.text

/-- Which statements fail, whatever is in the tables. -/
abbrev Policy := Statement → Option Refusal

namespace Archive

/-- Why a statement is refused: it fails, or it would add a second row for a run. -/
def refusal? (a : Archive) (policy : Policy) : Statement → Option Refusal
  | .insertRun row =>
    (policy (.insertRun row)).or (if a.contains row.id then some .duplicate else none)
  | statement => policy statement

/-- The tables after a statement. -/
def execute (a : Archive) : Statement → Archive
  | .insertRun row => a.insertRun row
  | .insertStep id row => a.insertStep id row
  | .finishRun id steps outcome => a.finishRun id steps outcome
  | _ => a

end Archive

/-- The row about an instruction that has executed, with the state as it is seen after it. -/
def StepRow.ofView (seq : Nat) (pc : Int64) (i : Instruction) (view : View) : StepRow :=
  { seq, pc, op := i.op.name, sp := view.registers.get .sp, hp := view.registers.get .hp,
    a0 := view.registers.get .a0 }

structure Recorder where
  /-- The run that was begun last. -/
  id : RunId := ""
  /-- The number of the next step; it goes on from one run to the next. -/
  seq : Nat := 0
  /-- The tables as they are within the open transaction. -/
  draft : Option Archive := none
  error : Option RecordError := none
  /-- The statements that have been issued, whether or not they were refused. -/
  issued : Array Statement := #[]
  deriving DecidableEq, Repr, Inhabited

namespace Recorder

/-- A transaction is open and nothing has been refused. -/
def isWriting (r : Recorder) : Bool :=
  r.error.isNone && r.draft.isSome

/-- Issues a statement within the open transaction. -/
def execute (policy : Policy) (statement : Statement) (r : Recorder) : Recorder :=
  let { id, seq, draft, error, issued } := r
  match error, draft with
  | none, some draft =>
    let issued := issued.push statement
    match draft.refusal? policy statement with
    | some refusal => { id, seq, error := some { statement, refusal }, issued }
    | none => { id, seq, draft := some (draft.execute statement), issued }
  | error, draft => { id, seq, draft, error, issued }

/-- Starts the record of a run. A transaction that was open before stays open if no new one can be
opened. -/
def start (policy : Policy) (a : Archive) (id : RunId) (memSize codeLength : Nat) (r : Recorder) :
    Recorder :=
  if r.error.isSome then r
  else
    let r := { r with id, issued := r.issued.push (.openDraft id) }
    match a.refusal? policy (.openDraft id) with
    | some refusal => { r with error := some { statement := .openDraft id, refusal } }
    | none =>
      let r := { r with draft := some a }.execute policy (.insertRun { id, memSize, codeLength })
      r.execute policy .prepareSteps

/-- Adds the state after an executed instruction to the draft. -/
def note (policy : Policy) (pc : Int64) (i : Instruction) (view : View) (r : Recorder) : Recorder :=
  let r := r.execute policy (.insertStep r.id (.ofView r.seq pc i view))
  if r.isWriting then { r with seq := r.seq + 1 } else r

/-- Puts the draft in the place of the archive. -/
def commit (policy : Policy) (a : Archive) (r : Recorder) : Archive × Recorder :=
  match r.execute policy (.commit r.id) with
  | { id, seq, draft := some draft, error := none, issued } => (draft, { id, seq, issued })
  | r => (a, r)

/-- Completes the draft and commits it. -/
def finish (policy : Policy) (a : Archive) (outcome : Outcome) (steps : Nat) (r : Recorder) :
    Archive × Recorder :=
  (r.execute policy (.finishRun r.id steps outcome)).commit policy a

/-- Follows one event of the run `id`. -/
def observe (policy : Policy) (id : RunId) (s : Archive × Recorder) (e : Event) :
    Archive × Recorder :=
  match s, e with
  | (a, r), .began size length _ => (a, r.start policy a id size length)
  | (a, r), .executed pc i view => (a, r.note policy pc i view)
  | (a, r), .ended fault view => r.finish policy a (Outcome.ofFault fault) view.steps
  | s, _ => s

end Recorder

end RegisterMachine
