import RegisterMachine.Opcode

/-!
# Instructions

An instruction has an opcode, three operand tokens and an offset. The tokens are register names,
decimal immediates or instruction indices, depending on the opcode; an unused slot is empty. Only
`lw` and `sw` use the offset, with their base register in the second slot.
-/

set_option autoImplicit false

namespace RegisterMachine

structure Instruction where
  op : Opcode := .invalid
  arg1 : String := ""
  arg2 : String := ""
  arg3 : String := ""
  offset : Int64 := 0
  deriving DecidableEq, Repr, Inhabited

namespace Instruction

def args (i : Instruction) : List String :=
  [i.arg1, i.arg2, i.arg3]

/-- An instruction from a list of tokens: tokens beyond the third are dropped. -/
def ofArgs (op : Opcode) (args : List String) (offset : Int64) : Instruction :=
  { op, arg1 := args.getD 0 "", arg2 := args.getD 1 "", arg3 := args.getD 2 "", offset }

/-- Empty tokens at the end make no difference. -/
theorem ofArgs_append_empty (op : Opcode) (args : List String) (n : Nat) (offset : Int64) :
    ofArgs op (args ++ List.replicate n "") offset = ofArgs op args offset := by
  have hget : ∀ k, (args ++ List.replicate n "").getD k "" = args.getD k "" := by
    intro k
    simp only [List.getD_eq_getElem?_getD, List.getElem?_append, List.getElem?_replicate]
    split
    · rfl
    · next hk =>
      rw [List.getElem?_eq_none (Nat.not_lt.mp hk)]
      split <;> rfl
  simp only [ofArgs, hget]

/-- An instruction that addresses `offset(base)`. -/
def memory (op : Opcode) (register : String) (offset : Int64) (base : String) : Instruction :=
  { op, arg1 := register, arg2 := base, offset }

def arg (i : Instruction) : Fin 3 → String
  | 0 => i.arg1
  | 1 => i.arg2
  | 2 => i.arg3

/-- Whether the opcode takes an address operand. -/
def hasAddress (i : Instruction) : Bool :=
  i.op == .lw || i.op == .sw

/-- The assembly form. Operands are written up to the first empty slot. -/
def text (i : Instruction) : String :=
  if i.hasAddress then
    i.op.name ++ " " ++ i.arg1 ++ " " ++ Decimal.ofInt64 i.offset ++ "(" ++ i.arg2 ++ ")"
  else
    (i.args.takeWhile (· ≠ "")).foldl (fun line token => line ++ " " ++ token) i.op.name

end Instruction

end RegisterMachine
