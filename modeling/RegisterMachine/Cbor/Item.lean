/-!
# CBOR data items

An item is one value of the format. Strings keep their chunks, since each chunk of a text must be
valid by itself; all other differences of encoding (length of heads, definite or indefinite
length) are gone.
-/

set_option autoImplicit false

namespace RegisterMachine.Cbor

/-- The eight major types. -/
inductive Kind where
  | unsigned
  | negative
  | bytes
  | text
  | array
  | map
  | tag
  | primitive
  deriving DecidableEq, Repr, Inhabited

namespace Kind

def name : Kind → String
  | .unsigned => "positive integer"
  | .negative => "negative integer"
  | .bytes => "byte string"
  | .text => "UTF-8 text string"
  | .array => "array"
  | .map => "map"
  | .tag => "tag"
  | .primitive => "primitives"

def number : Kind → Nat
  | .unsigned => 0
  | .negative => 1
  | .bytes => 2
  | .text => 3
  | .array => 4
  | .map => 5
  | .tag => 6
  | .primitive => 7

/-- The kind in the upper three bits of an initial byte. -/
def ofInitial (initial : UInt8) : Kind :=
  match initial.toNat / 32 with
  | 0 => .unsigned
  | 1 => .negative
  | 2 => .bytes
  | 3 => .text
  | 4 => .array
  | 5 => .map
  | 6 => .tag
  | _ => .primitive

end Kind

inductive Item where
  | unsigned (n : Nat)
  /-- The number `-1 - n`. -/
  | negative (n : Nat)
  | bytes (content : List UInt8)
  | text (chunks : List (List UInt8))
  | array (items : List Item)
  | map (entries : List (Item × Item))
  | tag (number : Nat) (content : Item)
  | simple (n : Nat)
  /-- A floating-point number by the bits of its encoding. -/
  | float (bits : Nat)
  deriving Repr, Inhabited

def Item.kind : Item → Kind
  | .unsigned _ => .unsigned
  | .negative _ => .negative
  | .bytes _ => .bytes
  | .text _ => .text
  | .array _ => .array
  | .map _ => .map
  | .tag .. => .tag
  | .simple _ => .primitive
  | .float _ => .primitive

end RegisterMachine.Cbor
