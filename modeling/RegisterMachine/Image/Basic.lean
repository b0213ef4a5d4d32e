import RegisterMachine.Instruction

/-!
# Program images

An image is a program with the size of its arena. Opcodes are stored by mnemonic, so a stored
instruction may name an operation that the machine does not have.
-/

set_option autoImplicit false

namespace RegisterMachine

structure StoredInstruction where
  op : String := ""
  args : List String := []
  offset : Int64 := 0
  deriving DecidableEq, Repr, Inhabited

structure Image where
  magic : String := ""
  version : Int64 := 0
  memSize : Int64 := 0
  /-- The stored program; nothing is different from an empty program only in the encoding. -/
  code : Option (List StoredInstruction) := none
  deriving DecidableEq, Repr, Inhabited

namespace StoredInstruction

/-- Empty operand slots at the end are not stored. -/
def ofInstruction (i : Instruction) : StoredInstruction :=
  { op := i.op.name
    args := (i.args.reverse.dropWhile (· = "")).reverse
    offset := i.offset }

def toInstruction (s : StoredInstruction) : Instruction :=
  Instruction.ofArgs (Opcode.ofMnemonic s.op) s.args s.offset

end StoredInstruction

namespace Image

def expectedMagic : String := "SVMB"

def currentVersion : Int64 := 1

/-- The file extension of images. -/
def extension : String := ".svmb"

def ofProgram (memSize : Int64) (code : List Instruction) : Image :=
  { magic := expectedMagic
    version := currentVersion
    memSize
    code := some (code.map StoredInstruction.ofInstruction) }

def stored (image : Image) : List StoredInstruction :=
  image.code.getD []

/-- The program; an unknown mnemonic becomes the empty opcode. -/
def instructions (image : Image) : List Instruction :=
  image.stored.map StoredInstruction.toInstruction

end Image

end RegisterMachine
