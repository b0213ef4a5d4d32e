import RegisterMachine.Cbor.Item

/-!
# Writing items

The canonical encoding: heads as short as possible, definite lengths only.
-/

set_option autoImplicit false

namespace RegisterMachine.Cbor

/-- The last `width` bytes of `n`, the most significant first. -/
def bytesOfNat : Nat → Nat → List UInt8
  | 0, _ => []
  | width + 1, n => bytesOfNat width (n / 256) ++ [UInt8.ofNat (n % 256)]

/-- The initial byte of a kind with the given information. -/
def initialByte (kind : Kind) (information : Nat) : UInt8 :=
  UInt8.ofNat (kind.number * 32 + information)

/-- The shortest head for an argument below 2^64. -/
def writeHead (kind : Kind) (n : Nat) : List UInt8 :=
  if n < 24 then [initialByte kind n]
  else if n < 0x100 then initialByte kind 24 :: bytesOfNat 1 n
  else if n < 0x10000 then initialByte kind 25 :: bytesOfNat 2 n
  else if n < 0x100000000 then initialByte kind 26 :: bytesOfNat 4 n
  else initialByte kind 27 :: bytesOfNat 8 n

def writeInt (n : Int64) : List UInt8 :=
  match n.toInt with
  | .ofNat k => writeHead .unsigned k
  | .negSucc k => writeHead .negative k

def writeText (content : List UInt8) : List UInt8 :=
  writeHead .text content.length ++ content

def writeArray (items : List (List UInt8)) : List UInt8 :=
  writeHead .array items.length ++ items.flatten

/-- A map from small numbers, in ascending order of its keys. -/
def writeRecord (fields : List (Nat × List UInt8)) : List UInt8 :=
  writeHead .map fields.length ++ fields.flatMap fun f => writeHead .unsigned f.1 ++ f.2

def writeNull : List UInt8 :=
  [initialByte .primitive 22]

end RegisterMachine.Cbor
