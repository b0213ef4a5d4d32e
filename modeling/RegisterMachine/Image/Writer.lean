import RegisterMachine.Cbor.Writer
import RegisterMachine.Image.Basic
import RegisterMachine.Text.Utf8

/-!
# Writing images

An image is a map with the keys 1 to 4, an instruction one with the keys 1 to 3. An instruction
leaves out an empty operand list and a zero offset.
-/

set_option autoImplicit false

namespace RegisterMachine

def writeString (s : String) : List UInt8 :=
  Cbor.writeText (Utf8.encode s)

namespace StoredInstruction

def fields (s : StoredInstruction) : List (Nat × List UInt8) :=
  [(1, writeString s.op)]
    ++ (if s.args.isEmpty then [] else [(2, Cbor.writeArray (s.args.map writeString))])
    ++ (if s.offset = 0 then [] else [(3, Cbor.writeInt s.offset)])

def write (s : StoredInstruction) : List UInt8 :=
  Cbor.writeRecord s.fields

end StoredInstruction

namespace Image

def writeCode : Option (List StoredInstruction) → List UInt8
  | none => Cbor.writeNull
  | some code => Cbor.writeArray (code.map StoredInstruction.write)

def write (image : Image) : List UInt8 :=
  Cbor.writeRecord
    [(1, writeString image.magic), (2, Cbor.writeInt image.version),
      (3, Cbor.writeInt image.memSize), (4, writeCode image.code)]

end Image

end RegisterMachine
