import RegisterMachine.Arena

/-!
# The machine

A machine runs one program once. Its state is flat: the program, the arena, the register bank, the
program counter, the allocated addresses with the highest of them, the number of fetched
instructions, and whether it still runs.
-/

set_option autoImplicit false

namespace RegisterMachine

/-- Whether a machine runs, has halted, or stopped at a fault. The last two are terminal. -/
inductive Status where
  | running
  | halted
  | faulted (fault : Fault)
  deriving DecidableEq, Repr, Inhabited

namespace Status

def names : List String :=
  ["running", "halted", "faulted"]

def number : Status → Nat
  | .running => 0
  | .halted => 1
  | .faulted _ => 2

/-- The name of the status with this number; a number that no status has is shown as is. -/
def nameOfNumber (n : Nat) : String :=
  names.getD n ("State(" ++ Decimal.ofNat n ++ ")")

def name (s : Status) : String :=
  nameOfNumber s.number

def fault? : Status → Option Fault
  | .faulted f => some f
  | _ => none

end Status

structure Machine where
  code : Array Instruction
  arena : Arena
  registers : Registers
  /-- The index of the next instruction. -/
  pc : Int64 := 0
  /-- The highest allocated address, -1 when there is none. -/
  heap : Int64 := -1
  /-- The addresses handed out by allocation and not yet given back. -/
  live : List Int64 := []
  /-- How many instructions have been fetched. A count without a bound: it is reported and never
  compared, so it agrees with a 64-bit counter up to the 2^63rd step. -/
  steps : Nat := 0
  status : Status := .running
  /-- Whether the first step has been taken. -/
  begun : Bool := false
  deriving DecidableEq, Repr, Inhabited

/-- What an observer may look at during a run. -/
structure View where
  pc : Int64
  steps : Nat
  status : Status
  registers : Registers
  deriving DecidableEq, Repr, Inhabited

/-- The number in a register. -/
def Registers.value (rs : Registers) (r : Register) : Except Cause Int64 :=
  match rs.get r with
  | some n => .ok n
  | none => .error (.absentRegister r)

namespace Machine

/-- A machine with an arena of `size` cells, loaded with `code`. -/
def load (size : Int64) (code : Array Instruction) : Machine :=
  { code, arena := Arena.ofSize size, registers := Registers.ofSize size }

def view (m : Machine) : View :=
  { pc := m.pc, steps := m.steps, status := m.status, registers := m.registers }

def isRunning (m : Machine) : Bool :=
  m.status = .running

def fault? (m : Machine) : Option Fault :=
  m.status.fault?

/-- The instruction at the program counter. -/
def fetch? (m : Machine) : Option Instruction :=
  if m.pc < 0 then none else m.code[m.pc.toNatClampNeg]?

end Machine

end RegisterMachine
