import RegisterMachine.Fault

/-!
# The arena

A fixed number of cells, shared by the heap and the stack. A cell is live from its last write to
its next release; a released cell keeps its word, which no read can see.
-/

set_option autoImplicit false

namespace RegisterMachine

structure Cell where
  value : Word := none
  live : Bool := false
  deriving DecidableEq, Repr, Inhabited

namespace Cell

/-- The cell as a dump shows it; a blank keeps the place of a missing minus sign. -/
def text (c : Cell) : String :=
  match c.value with
  | none => "| " ++ Word.text none ++ "\t|"
  | some n => "| " ++ (if 0 ≤ n then " " else "") ++ Decimal.ofInt64 n ++ "\t|"

end Cell

structure Arena where
  cells : Array Cell
  deriving DecidableEq, Repr, Inhabited

namespace Arena

/-- An arena of free cells; a negative size counts as zero. -/
def ofSize (size : Int64) : Arena :=
  ⟨Array.replicate size.toNatClampNeg {}⟩

def size (a : Arena) : Nat :=
  a.cells.size

def contains (a : Arena) (i : Int64) : Bool :=
  0 ≤ i && i.toNatClampNeg < a.size

def outside (a : Arena) (i : Int64) : ArenaError :=
  { kind := .outOfRange, index := i.toInt, size := a.size }

def unwritten (a : Arena) (i : Int64) : ArenaError :=
  { kind := .uninitializedRead, index := i.toInt, size := a.size }

def cell? (a : Arena) (i : Int64) : Option Cell :=
  if i < 0 then none else a.cells[i.toNatClampNeg]?

def cell (a : Arena) (i : Int64) : Except ArenaError Cell :=
  match a.cell? i with
  | some c => .ok c
  | none => .error (a.outside i)

/-- The number in a live cell. A cell that is free or was written without a value refuses. -/
def read (a : Arena) (i : Int64) : Except ArenaError Int64 :=
  match a.cell? i with
  | none => .error (a.outside i)
  | some { value := some n, live := true } => .ok n
  | some _ => .error (a.unwritten i)

/-- Stores `w` at `i` and makes the cell live; nothing happens outside the arena. -/
def put (a : Arena) (i : Int64) (w : Word) : Arena :=
  if i < 0 then a else ⟨a.cells.setIfInBounds i.toNatClampNeg { value := w, live := true }⟩

/-- Makes the cell at `i` free and keeps its word; nothing happens outside the arena. -/
def release (a : Arena) (i : Int64) : Arena :=
  if i < 0 then a
  else ⟨a.cells.modify i.toNatClampNeg fun c => { c with live := false }⟩

def write (a : Arena) (i : Int64) (w : Word) : Except ArenaError Arena :=
  if a.contains i then .ok (a.put i w) else .error (a.outside i)

def free (a : Arena) (i : Int64) : Except ArenaError Arena :=
  if a.contains i then .ok (a.release i) else .error (a.outside i)

/-- The lowest index whose cell is free. -/
def firstFree? (a : Arena) : Option Nat :=
  a.cells.findIdx? fun c => !c.live

def firstFree (a : Arena) : Except ArenaError Nat :=
  match a.firstFree? with
  | some i => .ok i
  | none => .error { kind := .outOfRange, index := a.size, size := a.size }

end Arena

end RegisterMachine
