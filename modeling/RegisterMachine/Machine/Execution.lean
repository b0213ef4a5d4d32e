import RegisterMachine.Machine.Operand

/-!
# Execution

An instruction examines its operands from left to right and writes as it goes. What it has written
when it meets an obstacle stays written.
-/

set_option autoImplicit false

namespace RegisterMachine

/-- Why an instruction does not complete. -/
inductive Obstacle where
  | fault (cause : Cause)
  /-- What a plan says of a push that the arena will refuse with the stack top already at `sp`. -/
  | overrun (sp : Int64) (error : ArenaError)
  /-- The division unit was given a zero divisor and takes the whole machine down. -/
  | trap
  deriving DecidableEq, Repr, Inhabited

/-- What a fault at an obstacle names as its cause; a trap is no fault. -/
def Obstacle.cause? : Obstacle → Option Cause
  | .fault cause => some cause
  | .overrun _ error => some (.memory error)
  | .trap => none

/-- Arithmetic works on the low 32 bits of its operands and wraps. -/
def widen (n : Int32) : Int64 :=
  n.toInt64

namespace Machine

/-- The quotient toward zero of the low 32 bits. The divisor is compared with zero in full
width, so a divisor that is a multiple of 2^32 passes and traps. -/
def quotient (a b : Int64) : Except Obstacle Int32 :=
  if b = 0 then .error (.fault (.condition .divisionByZero))
  else if b.toInt32 = 0 then .error .trap
  else .ok (a.toInt32 / b.toInt32)

def compute (op : Opcode) (a b : Int64) : Except Obstacle Int32 :=
  match op with
  | .add | .addi => .ok (a.toInt32 + b.toInt32)
  | .sub | .subi => .ok (a.toInt32 - b.toInt32)
  | .mul | .muli => .ok (a.toInt32 * b.toInt32)
  | _ => quotient a b

/-- The character with code point `n`; surrogates and numbers out of range are none. -/
def character? (n : Int64) : Option Char :=
  if 0 ≤ n ∧ n.toNatClampNeg.isValidChar then some (Char.ofNat n.toNatClampNeg) else none

def setRegister (m : Machine) (r : Register) (w : Word) : Machine :=
  { m with registers := m.registers.set r w }

/-- The highest of the allocated addresses, -1 when there is none. -/
def frontier (live : List Int64) : Int64 :=
  live.foldl max (-1)

/-- Gives an address back. One that was not allocated leaves the heap as it is. -/
def forget (m : Machine) (address : Int64) : Machine :=
  if address ∈ m.live then
    let live := m.live.filter (· ≠ address)
    { m with live, heap := if address = m.heap then frontier live else m.heap }
  else m

end Machine

/-- The machine that an instruction works on, and the texts that it has printed. -/
structure Workspace where
  machine : Machine
  printed : List String := []

/-- A part of an instruction at work. An obstacle undoes nothing. -/
abbrev Execution :=
  EStateM Obstacle Workspace

namespace Execution

open Machine

/-- Goes on with what a check of the machine finds. -/
def require {α : Type} (check : Machine → Except Cause α) : Execution α := fun w =>
  match check w.machine with
  | .ok a => .ok a w
  | .error cause => .error (.fault cause) w

def alter (f : Machine → Machine) : Execution Unit :=
  modify fun w => { w with machine := f w.machine }

def assign (r : Register) (value : Word) : Execution Unit :=
  alter fun m => m.setRegister r value

def jump (target : Int64) : Execution Unit :=
  alter fun m => { m with pc := target }

def print (text : String) : Execution Unit :=
  modify fun w => { w with printed := w.printed ++ [text] }

def word (r : Register) : Execution Word := do
  return (← get).machine.registers.get r

/-- Goes on if the arena has a cell at the address. -/
def contained (address : Int64) : Execution Unit :=
  require fun m =>
    if m.arena.contains address then .ok () else .error (.memory (m.arena.outside address))

def store (address : Int64) (value : Word) : Execution Unit := do
  contained address
  alter fun m => { m with arena := m.arena.put address value }

/-- The stack top moves before its operand is read, so pushing `$sp` stores the new top. -/
def push (i : Instruction) : Execution Unit := do
  let rs ← require fun _ => operandRegister i 0
  let sp ← require fun m => m.registers.value .sp
  assign .sp (some (sp - 1))
  store (sp - 1) (← word rs)

def pop : Execution Unit := do
  let sp ← require fun m => m.registers.value .sp
  assign .sp (some (sp + 1))

def load (i : Instruction) : Execution Unit := do
  let rd ← require fun _ => operandRegister i 0
  let base ← require fun m => m.operandValue i 1
  let n ← require fun m => (m.arena.read (base + i.offset)).mapError .memory
  assign rd (some n)

/-- Allocation takes the lowest free cell, which must stay below the stack by the same margin
that the fetch check demands. -/
def allocate (value : Word) : Execution Unit := do
  let sp ← require fun m => m.registers.value .sp
  let slot ← require fun m => m.arena.firstFree.mapError .memory
  let index := Int64.ofNat slot
  if index + 1 ≥ sp then throw (.fault (.allocationCollision index sp))
  -- A free cell is in the arena, so the write is not refused.
  alter fun m => { m with arena := m.arena.put index value }
  alter fun m => { m with live := m.live.insert index }
  alter fun m => { m with heap := max m.heap index }
  assign .a0 (some index)

/-- A store through the heap cursor allocates; the offset is then without meaning. -/
def storeWord (i : Instruction) : Execution Unit := do
  let rs ← require fun _ => operandRegister i 0
  let rd ← require fun _ => operandRegister i 1
  if rd = .hp then allocate (← word rs)
  else
    let base ← require fun m => m.operandValue i 1
    store (base + i.offset) (← word rs)

def loadImmediate (i : Instruction) : Execution Unit := do
  let rd ← require fun _ => operandRegister i 0
  let n ← require fun _ => operandNumber i 1
  assign rd (some n)

def move (i : Instruction) : Execution Unit := do
  let rd ← require fun _ => operandRegister i 0
  let rs ← require fun _ => operandRegister i 1
  assign rd (← word rs)

def arithmetic (i : Instruction) (immediate : Bool) : Execution Unit := do
  let rd ← require fun _ => operandRegister i 0
  let a ← require fun m => m.operandValue i 1
  let b ← require fun m => if immediate then operandNumber i 2 else m.operandValue i 2
  let n ← liftExcept (compute i.op a b)
  assign rd (some (widen n))

/-- Conjunction and disjunction store truth as 1 and falsity as an absent word. -/
def connective (i : Instruction) (join : Bool → Bool → Bool) : Execution Unit := do
  let rd ← require fun _ => operandRegister i 0
  let a ← require fun m => m.operandTruth i 1
  let b ← require fun m => m.operandTruth i 2
  assign rd (if join a b then some 1 else none)

/-- Negation stores falsity as 0. -/
def negate (i : Instruction) : Execution Unit := do
  let rd ← require fun _ => operandRegister i 0
  let a ← require fun m => m.operandTruth i 1
  assign rd (some (if a then 0 else 1))

def delete (i : Instruction) : Execution Unit := do
  let address ← require fun m => m.operandValue i 0
  contained address
  alter fun m => { m with arena := m.arena.release address }
  alter fun m => m.forget address

def printNumber (i : Instruction) : Execution Unit := do
  let n ← require fun m => m.operandValue i 0
  print (Decimal.ofInt64 n ++ "\n")

def printChar (i : Instruction) : Execution Unit := do
  let n ← require fun m => m.operandValue i 0
  match character? n with
  | some c => print (String.singleton c ++ "\n")
  | none => throw (.fault (.notCharacter n))

/-- Absent words are equal to each other and to nothing else. -/
def branchEqual (i : Instruction) : Execution Unit := do
  let r ← require fun _ => operandRegister i 0
  let s ← require fun _ => operandRegister i 1
  let target ← require fun _ => operandNumber i 2
  if (← word r) = (← word s) then jump target

def branchLessEqual (i : Instruction) : Execution Unit := do
  let a ← require fun m => m.operandValue i 0
  let b ← require fun m => m.operandValue i 1
  let target ← require fun _ => operandNumber i 2
  if a ≤ b then jump target

def branch (i : Instruction) : Execution Unit := do
  let target ← require fun _ => operandNumber i 0
  jump target

/-- A jump that leaves the address of the following instruction in the return register. -/
def call (i : Instruction) : Execution Unit := do
  let target ← require fun _ => operandNumber i 0
  assign .ra (some (← get).machine.pc)
  jump target

def jumpRegister (i : Instruction) : Execution Unit := do
  let target ← require fun m => m.operandValue i 0
  jump target

/-- All that `i` does to the machine, which has advanced past it. Halting comes later. -/
def ofInstruction (i : Instruction) : Execution Unit :=
  match i.op with
  | .push => push i
  | .pop => pop
  | .lw => load i
  | .sw => storeWord i
  | .li => loadImmediate i
  | .mv => move i
  | .add | .sub | .mul | .div => arithmetic i false
  | .addi | .subi | .muli | .divi => arithmetic i true
  | .and => connective i (· && ·)
  | .or => connective i (· || ·)
  | .not => negate i
  | .del => delete i
  | .print => printNumber i
  | .printchar => printChar i
  | .beq => branchEqual i
  | .bleq => branchLessEqual i
  | .b => branch i
  | .jal => call i
  | .jr => jumpRegister i
  | .halt => pure ()
  | .invalid => throw (.fault (.unknownOpcode .invalid))
  | .undefined excess => throw (.fault (.unknownOpcode (.undefined excess)))

end Execution

/-! ### Changes

What an instruction does can also be told before anything is written. `Machine.plan` reads the
state and decides on the change, or on the obstacle; `Machine.apply` makes the change at once. A
refused instruction leaves no trace, with one exception: a push past the arena has moved the stack
top before the write is refused. -/

/-- What one instruction does to the state. -/
inductive Change where
  | nothing
  | assign (r : Register) (w : Word)
  /-- The stack top moves to `address`, where `w` is stored. -/
  | push (address : Int64) (w : Word)
  | store (address : Int64) (w : Word)
  /-- `w` is stored at a fresh heap address, which is left in the accumulator. -/
  | allocate (address : Int64) (w : Word)
  | release (address : Int64)
  | print (text : String)
  | jump (target : Int64)
  /-- A jump that keeps the address of the following instruction in the return register. -/
  | call (target : Int64)
  deriving DecidableEq, Repr, Inhabited

namespace Machine

/-- Runs `check` as a part of planning. -/
def demand {α : Type} (check : Except Cause α) : Except Obstacle α :=
  check.mapError .fault

/-- The operand is looked up under the new top. -/
def planPush (m : Machine) (i : Instruction) : Except Obstacle Change := do
  let rs ← demand (operandRegister i 0)
  let sp ← demand (m.registers.value .sp)
  let w := (m.registers.set .sp (some (sp - 1))).get rs
  if m.arena.contains (sp - 1) then return .push (sp - 1) w
  else throw (.overrun (sp - 1) (m.arena.outside (sp - 1)))

def planPop (m : Machine) : Except Obstacle Change := do
  let sp ← demand (m.registers.value .sp)
  return .assign .sp (some (sp + 1))

def planLoad (m : Machine) (i : Instruction) : Except Obstacle Change := do
  let rd ← demand (operandRegister i 0)
  let base ← demand (m.operandValue i 1)
  let n ← demand ((m.arena.read (base + i.offset)).mapError .memory)
  return .assign rd (some n)

def planAllocate (m : Machine) (w : Word) : Except Obstacle Change := do
  let sp ← demand (m.registers.value .sp)
  let slot ← demand (m.arena.firstFree.mapError .memory)
  let index := Int64.ofNat slot
  if index + 1 ≥ sp then throw (.fault (.allocationCollision index sp))
  return .allocate index w

def planStore (m : Machine) (i : Instruction) : Except Obstacle Change := do
  let w ← demand (m.operandWord i 0)
  let base ← demand (operandRegister i 1)
  if base = .hp then m.planAllocate w
  else
    let address ← demand (m.registers.value base)
    let address := address + i.offset
    if m.arena.contains address then return .store address w
    else throw (.fault (.memory (m.arena.outside address)))

def planLoadImmediate (i : Instruction) : Except Obstacle Change := do
  let rd ← demand (operandRegister i 0)
  let n ← demand (operandNumber i 1)
  return .assign rd (some n)

def planMove (m : Machine) (i : Instruction) : Except Obstacle Change := do
  let rd ← demand (operandRegister i 0)
  let w ← demand (m.operandWord i 1)
  return .assign rd w

def planArithmetic (m : Machine) (i : Instruction) (immediate : Bool) :
    Except Obstacle Change := do
  let rd ← demand (operandRegister i 0)
  let a ← demand (m.operandValue i 1)
  let b ← demand (if immediate then operandNumber i 2 else m.operandValue i 2)
  let n ← compute i.op a b
  return .assign rd (some (widen n))

def planConnective (m : Machine) (i : Instruction) (connective : Bool → Bool → Bool) :
    Except Obstacle Change := do
  let rd ← demand (operandRegister i 0)
  let a ← demand (m.operandTruth i 1)
  let b ← demand (m.operandTruth i 2)
  return .assign rd (if connective a b then some 1 else none)

def planNot (m : Machine) (i : Instruction) : Except Obstacle Change := do
  let rd ← demand (operandRegister i 0)
  let a ← demand (m.operandTruth i 1)
  return .assign rd (some (if a then 0 else 1))

def planDelete (m : Machine) (i : Instruction) : Except Obstacle Change := do
  let address ← demand (m.operandValue i 0)
  if m.arena.contains address then return .release address
  else throw (.fault (.memory (m.arena.outside address)))

def planPrint (m : Machine) (i : Instruction) : Except Obstacle Change := do
  let n ← demand (m.operandValue i 0)
  return .print (Decimal.ofInt64 n ++ "\n")

def planPrintChar (m : Machine) (i : Instruction) : Except Obstacle Change := do
  let n ← demand (m.operandValue i 0)
  match character? n with
  | some c => return .print (String.singleton c ++ "\n")
  | none => throw (.fault (.notCharacter n))

def planBranchEqual (m : Machine) (i : Instruction) : Except Obstacle Change := do
  let a ← demand (m.operandWord i 0)
  let b ← demand (m.operandWord i 1)
  let target ← demand (operandNumber i 2)
  return if a = b then .jump target else .nothing

def planBranchLessEqual (m : Machine) (i : Instruction) : Except Obstacle Change := do
  let a ← demand (m.operandValue i 0)
  let b ← demand (m.operandValue i 1)
  let target ← demand (operandNumber i 2)
  return if a ≤ b then .jump target else .nothing

def planBranch (i : Instruction) : Except Obstacle Change := do
  let target ← demand (operandNumber i 0)
  return .jump target

def planCall (i : Instruction) : Except Obstacle Change := do
  let target ← demand (operandNumber i 0)
  return .call target

def planReturn (m : Machine) (i : Instruction) : Except Obstacle Change := do
  let target ← demand (m.operandValue i 0)
  return .jump target

/-- What `i` does in state `m`. Operands are examined from left to right. -/
def plan (m : Machine) (i : Instruction) : Except Obstacle Change :=
  match i.op with
  | .push => m.planPush i
  | .pop => m.planPop
  | .lw => m.planLoad i
  | .sw => m.planStore i
  | .li => planLoadImmediate i
  | .mv => m.planMove i
  | .add | .sub | .mul | .div => m.planArithmetic i false
  | .addi | .subi | .muli | .divi => m.planArithmetic i true
  | .and => m.planConnective i (· && ·)
  | .or => m.planConnective i (· || ·)
  | .not => m.planNot i
  | .del => m.planDelete i
  | .print => m.planPrint i
  | .printchar => m.planPrintChar i
  | .beq => m.planBranchEqual i
  | .bleq => m.planBranchLessEqual i
  | .b => planBranch i
  | .jal => planCall i
  | .jr => m.planReturn i
  | .halt => .ok .nothing
  | .invalid => .error (.fault (.unknownOpcode .invalid))
  | .undefined excess => .error (.fault (.unknownOpcode (.undefined excess)))

def apply (m : Machine) : Change → Machine
  | .nothing => m
  | .assign r w => m.setRegister r w
  | .push address w =>
    { m with
      registers := m.registers.set .sp (some address)
      arena := m.arena.put address w }
  | .store address w => { m with arena := m.arena.put address w }
  | .allocate address w =>
    { m with
      arena := m.arena.put address w
      live := m.live.insert address
      heap := max m.heap address
      registers := m.registers.set .a0 (some address) }
  | .release address => { m with arena := m.arena.release address }.forget address
  | .print _ => m
  | .jump target => { m with pc := target }
  | .call target => { m with registers := m.registers.set .ra (some m.pc), pc := target }

end Machine

end RegisterMachine
