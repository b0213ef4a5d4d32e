import RegisterMachine.Instruction
import RegisterMachine.Register
import RegisterMachine.Text.Quoted

/-!
# Faults

A fault stops the machine for good. Its kind classifies it for the program, its cause says what
went wrong, and the conditions tell which problems it exhibits: that of its kind, and those of
its cause. A failed arena access is a memory access fault whose cause still carries the finer
condition.
-/

set_option autoImplicit false

namespace RegisterMachine

/-- What can be wrong, independent of where it is noticed. -/
inductive Condition where
  | uninitializedRead
  | outOfRange
  | memoryAccess
  | collision
  | divisionByZero
  | malformedImmediate
  | unknownOpcode
  | invalidOperand
  | instructionOutOfRange
  deriving DecidableEq, Repr, Inhabited

namespace Condition

def all : List Condition :=
  [.uninitializedRead, .outOfRange, .memoryAccess, .collision, .divisionByZero,
    .malformedImmediate, .unknownOpcode, .invalidOperand, .instructionOutOfRange]

def text : Condition → String
  | .uninitializedRead => "uninitialized read"
  | .outOfRange => "address out of range"
  | .memoryAccess => "memory access fault"
  | .collision => "heap and stack collided"
  | .divisionByZero => "division by zero"
  | .malformedImmediate => "malformed immediate"
  | .unknownOpcode => "unknown opcode"
  | .invalidOperand => "invalid operand"
  | .instructionOutOfRange => "instruction index out of range"

end Condition

inductive FaultKind where
  | noFault
  /-- A register or cell read before it was written, or after it was freed. -/
  | uninitializedRead
  /-- An arena index outside the arena. -/
  | outOfRange
  /-- A collision of heap and stack, or a refused arena access. -/
  | memoryAccessFault
  | divisionByZero
  | malformedImmediate
  | unknownOpcode
  /-- A missing operand, an unknown register name or a number that is no character. -/
  | invalidOperand
  | instructionOutOfRange
  /-- The kind with the number `9 + excess`. -/
  | undefined (excess : Fin 247)
  deriving DecidableEq, Repr, Inhabited

namespace FaultKind

def named : List FaultKind :=
  [.noFault, .uninitializedRead, .outOfRange, .memoryAccessFault, .divisionByZero,
    .malformedImmediate, .unknownOpcode, .invalidOperand, .instructionOutOfRange]

def ofNumber (n : UInt8) : FaultKind :=
  match named[n.toNat]? with
  | some kind => kind
  | none => .undefined (Fin.ofNat 247 (n.toNat - 9))

def name : FaultKind → String
  | .noFault => "NoFault"
  | .uninitializedRead => "UninitializedRead"
  | .outOfRange => "OutOfRange"
  | .memoryAccessFault => "MemoryAccessFault"
  | .divisionByZero => "DivisionByZero"
  | .malformedImmediate => "MalformedImmediate"
  | .unknownOpcode => "UnknownOpcode"
  | .invalidOperand => "InvalidOperand"
  | .instructionOutOfRange => "InstructionOutOfRange"
  | .undefined excess => "FaultKind(" ++ Decimal.ofNat (9 + excess.val) ++ ")"

def condition? : FaultKind → Option Condition
  | .uninitializedRead => some .uninitializedRead
  | .outOfRange => some .outOfRange
  | .memoryAccessFault => some .memoryAccess
  | .divisionByZero => some .divisionByZero
  | .malformedImmediate => some .malformedImmediate
  | .unknownOpcode => some .unknownOpcode
  | .invalidOperand => some .invalidOperand
  | .instructionOutOfRange => some .instructionOutOfRange
  | .noFault => none
  | .undefined _ => none

end FaultKind

/-- A refused arena access: the index asked for and the size of the arena. -/
structure ArenaError where
  kind : FaultKind
  index : Int
  size : Int
  deriving DecidableEq, Repr, Inhabited

namespace ArenaError

def message (e : ArenaError) : String :=
  if e.kind = .outOfRange then
    "address " ++ Decimal.ofInt e.index ++ " out of range [0," ++ Decimal.ofInt e.size ++ ")"
  else
    "uninitialized read at address " ++ Decimal.ofInt e.index

def exhibits (e : ArenaError) (c : Condition) : Bool :=
  e.kind.condition? == some c

end ArenaError

inductive Cause where
  /-- The register holds nothing. -/
  | absentRegister (r : Register)
  | memory (e : ArenaError)
  /-- The heap has reached the stack before a fetch. -/
  | collision (hp heap sp : Int64)
  /-- The only free cells lie at or above the stack. -/
  | allocationCollision (index sp : Int64)
  | malformedImmediate (token : String)
  | unknownOpcode (op : Opcode)
  /-- No token in this slot, counted from 1. -/
  | missingOperand (position : Nat)
  | unknownRegister (token : String)
  | notCharacter (value : Int64)
  | noInstruction (pc : Int64) (length : Nat)
  /-- The condition alone. -/
  | condition (c : Condition)
  /-- A text that stands for no condition. -/
  | remark (text : String)
  deriving DecidableEq, Repr, Inhabited

namespace Cause

def message : Cause → String
  | .absentRegister r => Condition.uninitializedRead.text ++ ": register " ++ r.name
  | .memory e => e.message
  | .collision hp heap sp =>
    Condition.collision.text ++ ": hp=" ++ Decimal.ofInt64 hp ++ " heap=" ++ Decimal.ofInt64 heap
      ++ " sp=" ++ Decimal.ofInt64 sp
  | .allocationCollision index sp =>
    Condition.collision.text ++ ": allocation at " ++ Decimal.ofInt64 index ++ ", sp="
      ++ Decimal.ofInt64 sp
  | .malformedImmediate token => Condition.malformedImmediate.text ++ ": " ++ Quoted.text token
  | .unknownOpcode op => Condition.unknownOpcode.text ++ ": " ++ op.name
  | .missingOperand position =>
    Condition.invalidOperand.text ++ ": missing operand " ++ Decimal.ofNat position
  | .unknownRegister token =>
    Condition.invalidOperand.text ++ ": unknown register " ++ Quoted.text token
  | .notCharacter value =>
    Condition.invalidOperand.text ++ ": " ++ Decimal.ofInt64 value ++ " is not a character"
  | .noInstruction pc length =>
    Condition.instructionOutOfRange.text ++ ": " ++ Decimal.ofInt64 pc ++ " not in [0,"
      ++ Decimal.ofNat length ++ ")"
  | .condition c => c.text
  | .remark text => text

/-- The condition that the cause exhibits by itself. -/
def condition? : Cause → Option Condition
  | .absentRegister _ => some .uninitializedRead
  | .memory e => e.kind.condition?
  | .collision .. => some .collision
  | .allocationCollision .. => some .collision
  | .malformedImmediate _ => some .malformedImmediate
  | .unknownOpcode _ => some .unknownOpcode
  | .missingOperand _ => some .invalidOperand
  | .unknownRegister _ => some .invalidOperand
  | .notCharacter _ => some .invalidOperand
  | .noInstruction .. => some .instructionOutOfRange
  | .condition c => some c
  | .remark _ => none

def exhibits (cause : Cause) (c : Condition) : Bool :=
  cause.condition? == some c

/-- The refused arena access behind the cause, if there is one. -/
def arenaError? : Cause → Option ArenaError
  | .memory e => some e
  | _ => none

/-- How the machine classifies a fault with this cause. -/
def kind : Cause → FaultKind
  | .absentRegister _ => .uninitializedRead
  | .memory _ => .memoryAccessFault
  | .collision .. => .memoryAccessFault
  | .allocationCollision .. => .memoryAccessFault
  | .malformedImmediate _ => .malformedImmediate
  | .unknownOpcode _ => .unknownOpcode
  | .missingOperand _ => .invalidOperand
  | .unknownRegister _ => .invalidOperand
  | .notCharacter _ => .invalidOperand
  | .noInstruction .. => .instructionOutOfRange
  | .condition .uninitializedRead => .uninitializedRead
  | .condition .outOfRange => .outOfRange
  | .condition .memoryAccess => .memoryAccessFault
  | .condition .collision => .memoryAccessFault
  | .condition .divisionByZero => .divisionByZero
  | .condition .malformedImmediate => .malformedImmediate
  | .condition .unknownOpcode => .unknownOpcode
  | .condition .invalidOperand => .invalidOperand
  | .condition .instructionOutOfRange => .instructionOutOfRange
  | .remark _ => .noFault

end Cause

/-- A terminal execution error. -/
structure Fault where
  kind : FaultKind
  /-- The index of the faulting instruction, or of the next fetch if nothing was fetched. -/
  pc : Int64
  /-- The faulting instruction; the empty one if nothing was fetched. -/
  instruction : Instruction := {}
  cause : Option Cause
  deriving DecidableEq, Repr, Inhabited

namespace Fault

def ofCause (cause : Cause) (pc : Int64) (instruction : Instruction) : Fault :=
  { kind := cause.kind, pc, instruction, cause := some cause }

def message (f : Fault) : String :=
  let place := f.kind.name ++ " at pc " ++ Decimal.ofInt64 f.pc
  let place :=
    if f.instruction.op = .invalid then place else place ++ " (" ++ f.instruction.text ++ ")"
  match f.cause with
  | none => place
  | some cause => place ++ ": " ++ cause.message

/-- A fault exhibits the condition of its kind and that of its cause. -/
def exhibits (f : Fault) (c : Condition) : Bool :=
  f.kind.condition? == some c || f.cause.any (·.exhibits c)

def arenaError? (f : Fault) : Option ArenaError :=
  f.cause.bind Cause.arenaError?

end Fault

end RegisterMachine
