/-!
# Decimal numbers

Integers are written with the fewest digits and a `-` sign, and read with an optional single
sign and any number of leading zeros. Only the ten ASCII digits count.
-/

set_option autoImplicit false

namespace RegisterMachine.Decimal

def ofNat (n : Nat) : String :=
  String.ofList (Nat.toDigits 10 n)

def ofInt : Int → String
  | .ofNat n => ofNat n
  | .negSucc n => "-" ++ ofNat (n + 1)

def ofInt64 (n : Int64) : String :=
  ofInt n.toInt

/-- One or more digits. -/
def readNat? (digits : List Char) : Option Nat :=
  if digits.isEmpty || !digits.all Char.isDigit then none
  else some (Nat.ofDigitChars 10 digits 0)

/-- An optional sign, then one or more digits. -/
def readInt? : List Char → Option Int
  | '-' :: digits => (readNat? digits).map fun n => -(n : Int)
  | '+' :: digits => (readNat? digits).map fun n => (n : Int)
  | digits => (readNat? digits).map fun n => (n : Int)

/-- The integers that an immediate, an offset or a target may denote. -/
def FitsInt32 (n : Int) : Prop :=
  -0x80000000 ≤ n ∧ n < 0x80000000

instance (n : Int) : Decidable (FitsInt32 n) :=
  inferInstanceAs (Decidable (_ ∧ _))

/-- A signed 32-bit number in decimal, as the 64-bit content that a register takes from it. -/
def readInt32? (token : String) : Option Int64 :=
  match readInt? token.toList with
  | some n => if FitsInt32 n then some (Int64.ofInt n) else none
  | none => none

end RegisterMachine.Decimal
