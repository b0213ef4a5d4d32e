import RegisterMachine.Word

/-!
# Registers

The eight registers and the bank that holds their contents.
-/

set_option autoImplicit false

namespace RegisterMachine

inductive Register where
  /-- Stack top; a lower address means more items. -/
  | sp
  /-- Call link, the base of the current frame. -/
  | cl
  /-- Frame pointer. -/
  | fp
  /-- Heap cursor, compared with the stack top before every fetch. -/
  | hp
  /-- Return address. -/
  | ra
  /-- Access link. -/
  | al
  /-- Accumulator; an allocation leaves the new address here. -/
  | a0
  /-- Scratch. -/
  | t1
  deriving DecidableEq, Repr, Inhabited

namespace Register

def all : List Register :=
  [.sp, .cl, .fp, .hp, .ra, .al, .a0, .t1]

def name : Register → String
  | .sp => "$sp"
  | .cl => "$cl"
  | .fp => "$fp"
  | .hp => "$hp"
  | .ra => "$ra"
  | .al => "$al"
  | .a0 => "$a0"
  | .t1 => "$t1"

def number : Register → Nat
  | .sp => 0
  | .cl => 1
  | .fp => 2
  | .hp => 3
  | .ra => 4
  | .al => 5
  | .a0 => 6
  | .t1 => 7

/-- The name of the register with this number; a number that no register has is shown as is. -/
def nameOfNumber (n : Nat) : String :=
  match all[n]? with
  | some r => r.name
  | none => "$r" ++ Decimal.ofNat n

/-- The token with one leading `$` taken off. -/
def bareToken (token : String) : List Char :=
  match token.toList with
  | '$' :: rest => rest
  | cs => cs

/-- The register that a token names, with or without its leading `$`. -/
def ofToken? (token : String) : Option Register :=
  all.find? fun r => r.name.toList == '$' :: bareToken token

end Register

/-- The register bank. -/
structure Registers where
  sp : Word := none
  cl : Word := none
  fp : Word := none
  hp : Word := none
  ra : Word := none
  al : Word := none
  a0 : Word := none
  t1 : Word := none
  deriving DecidableEq, Repr, Inhabited

namespace Registers

/-- The bank for an arena of `size` cells: the stack is empty and the heap cursor at the bottom. -/
def ofSize (size : Int64) : Registers :=
  { sp := some size, cl := some size, fp := some (size - 1), hp := some 0 }

def get (rs : Registers) : Register → Word
  | .sp => rs.sp
  | .cl => rs.cl
  | .fp => rs.fp
  | .hp => rs.hp
  | .ra => rs.ra
  | .al => rs.al
  | .a0 => rs.a0
  | .t1 => rs.t1

def set (rs : Registers) (r : Register) (w : Word) : Registers :=
  match r with
  | .sp => { rs with sp := w }
  | .cl => { rs with cl := w }
  | .fp => { rs with fp := w }
  | .hp => { rs with hp := w }
  | .ra => { rs with ra := w }
  | .al => { rs with al := w }
  | .a0 => { rs with a0 := w }
  | .t1 => { rs with t1 := w }

theorem get_set (rs : Registers) (r s : Register) (w : Word) :
    (rs.set r w).get s = if s = r then w else rs.get s := by
  cases r <;> cases s <;> rfl

end Registers

end RegisterMachine
