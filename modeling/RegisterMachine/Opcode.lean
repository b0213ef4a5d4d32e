import RegisterMachine.Text.Decimal

/-!
# Opcodes

The instruction set has 26 operations. An opcode is a byte, so it may also be the empty opcode 0,
which never executes, or one of the numbers above the instruction set.
-/

set_option autoImplicit false

namespace RegisterMachine

inductive Opcode where
  | invalid
  | push
  | pop
  | lw
  | sw
  | li
  | mv
  | add
  | sub
  | mul
  | div
  | addi
  | subi
  | muli
  | divi
  | and
  | or
  | not
  | del
  | print
  | printchar
  | beq
  | bleq
  | b
  | jal
  | jr
  | halt
  /-- The opcode with the number `27 + excess`. -/
  | undefined (excess : Fin 229)
  deriving DecidableEq, Repr, Inhabited

namespace Opcode

/-- The instruction set, in the order of its numbers from 1. -/
def instructionSet : List Opcode :=
  [.push, .pop, .lw, .sw, .li, .mv, .add, .sub, .mul, .div, .addi, .subi, .muli, .divi,
    .and, .or, .not, .del, .print, .printchar, .beq, .bleq, .b, .jal, .jr, .halt]

def number : Opcode → Nat
  | .invalid => 0
  | .push => 1
  | .pop => 2
  | .lw => 3
  | .sw => 4
  | .li => 5
  | .mv => 6
  | .add => 7
  | .sub => 8
  | .mul => 9
  | .div => 10
  | .addi => 11
  | .subi => 12
  | .muli => 13
  | .divi => 14
  | .and => 15
  | .or => 16
  | .not => 17
  | .del => 18
  | .print => 19
  | .printchar => 20
  | .beq => 21
  | .bleq => 22
  | .b => 23
  | .jal => 24
  | .jr => 25
  | .halt => 26
  | .undefined excess => 27 + excess.val

def ofNumber (n : UInt8) : Opcode :=
  match (Opcode.invalid :: instructionSet)[n.toNat]? with
  | some op => op
  | none => .undefined (Fin.ofNat 229 (n.toNat - 27))

def name : Opcode → String
  | .invalid => "invalid"
  | .push => "push"
  | .pop => "pop"
  | .lw => "lw"
  | .sw => "sw"
  | .li => "li"
  | .mv => "mv"
  | .add => "add"
  | .sub => "sub"
  | .mul => "mul"
  | .div => "div"
  | .addi => "addi"
  | .subi => "subi"
  | .muli => "muli"
  | .divi => "divi"
  | .and => "and"
  | .or => "or"
  | .not => "not"
  | .del => "del"
  | .print => "print"
  | .printchar => "printchar"
  | .beq => "beq"
  | .bleq => "bleq"
  | .b => "b"
  | .jal => "jal"
  | .jr => "jr"
  | .halt => "halt"
  | .undefined excess => "op(" ++ Decimal.ofNat (27 + excess.val) ++ ")"

/-- Whether the opcode belongs to the instruction set. -/
def isValid : Opcode → Bool
  | .invalid => false
  | .undefined _ => false
  | _ => true

/-- The operation with this mnemonic, in lower case; any other name is the empty opcode. -/
def ofMnemonic (mnemonic : String) : Opcode :=
  (instructionSet.find? fun op => op.name == mnemonic).getD .invalid

def mnemonics : List String :=
  instructionSet.map name

end Opcode

end RegisterMachine
