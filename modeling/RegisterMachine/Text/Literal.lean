/-!
# Integer literals

A sign, then digits in base ten, or in base two, eight or sixteen after `0b`, `0o`, `0x` or a bare
`0`. Single underscores may stand between digits and after the marker of the base. Reading goes
from left to right, and whichever comes first of a misplaced character and a number beyond 64 bits
decides the failure.
-/

set_option autoImplicit false

namespace RegisterMachine.Literal

inductive Misread where
  | malformed
  | outOfRange
  deriving DecidableEq, Repr, Inhabited

def digit? (c : Char) : Option Nat :=
  if '0' ≤ c ∧ c ≤ '9' then some (c.toNat - '0'.toNat)
  else if 'a' ≤ c ∧ c ≤ 'z' then some (c.toNat - 'a'.toNat + 10)
  else if 'A' ≤ c ∧ c ≤ 'Z' then some (c.toNat - 'A'.toNat + 10)
  else none

/-- Adds the digits to the number `n` read so far. -/
def scan (base : Nat) : Nat → List Char → Except Misread Nat
  | n, [] => .ok n
  | n, '_' :: rest => scan base n rest
  | n, c :: rest =>
    match digit? c with
    | none => .error .malformed
    | some d =>
      if d ≥ base then .error .malformed
      else if n * base + d ≥ 0x10000000000000000 then .error .outOfRange
      else scan base (n * base + d) rest

/-- Whether every underscore follows a digit and precedes one; `after` tells whether a digit comes
before the text. -/
def spaced : (after : Bool) → List Char → Bool
  | after, [] => after
  | after, '_' :: rest => after && spaced false rest
  | _, _ :: rest => spaced true rest

/-- The base of an unsigned literal, whether it has a marker, and its digits. -/
def split : List Char → Nat × Bool × List Char
  | '0' :: m :: d :: rest =>
    if m = 'b' ∨ m = 'B' then (2, true, d :: rest)
    else if m = 'o' ∨ m = 'O' then (8, true, d :: rest)
    else if m = 'x' ∨ m = 'X' then (16, true, d :: rest)
    else (8, true, m :: d :: rest)
  | '0' :: rest => (8, true, rest)
  | rest => (10, false, rest)

def readNat (chars : List Char) : Except Misread Nat :=
  if chars.isEmpty then .error .malformed
  else
    let (base, marked, digits) := split chars
    match scan base 0 digits with
    | .error e => .error e
    | .ok n =>
      if digits.contains '_' && !spaced marked digits then .error .malformed else .ok n

def bounded (n : Int) : Except Misread Int64 :=
  if -0x8000000000000000 ≤ n ∧ n < 0x8000000000000000 then .ok (Int64.ofInt n) else .error .outOfRange

/-- The 64-bit number that a literal denotes. -/
def readInt64 (s : String) : Except Misread Int64 :=
  match s.toList with
  | '-' :: chars => (readNat chars).bind fun n => bounded (-(n : Int))
  | '+' :: chars => (readNat chars).bind fun n => bounded n
  | chars => (readNat chars).bind fun n => bounded n

end RegisterMachine.Literal
