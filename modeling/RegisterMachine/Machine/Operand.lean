import RegisterMachine.Machine.Basic

/-!
# Operands

How the tokens of an instruction are read while it executes. A slot that is needed must not be
empty; a register token may lack its `$`.
-/

set_option autoImplicit false

namespace RegisterMachine.Machine

def operandToken (i : Instruction) (slot : Fin 3) : Except Cause String :=
  if i.arg slot = "" then .error (.missingOperand (slot.val + 1)) else .ok (i.arg slot)

def operandRegister (i : Instruction) (slot : Fin 3) : Except Cause Register := do
  let token ← operandToken i slot
  match Register.ofToken? token with
  | some r => .ok r
  | none => .error (.unknownRegister token)

/-- A decimal immediate or an instruction index. -/
def operandNumber (i : Instruction) (slot : Fin 3) : Except Cause Int64 := do
  let token ← operandToken i slot
  match Decimal.readInt32? token with
  | some n => .ok n
  | none => .error (.malformedImmediate token)

def operandWord (m : Machine) (i : Instruction) (slot : Fin 3) : Except Cause Word := do
  let r ← operandRegister i slot
  return m.registers.get r

def operandValue (m : Machine) (i : Instruction) (slot : Fin 3) : Except Cause Int64 := do
  let r ← operandRegister i slot
  m.registers.value r

/-- A register holds truth when it holds exactly 1; an absent word is false. -/
def operandTruth (m : Machine) (i : Instruction) (slot : Fin 3) : Except Cause Bool := do
  let w ← m.operandWord i slot
  return w == some 1

end RegisterMachine.Machine
