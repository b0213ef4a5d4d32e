import RegisterMachine.Text.Hex
import RegisterMachine.Text.Utf8

/-!
# Percent escapes

A percent sign and two hexadecimal digits stand for a byte. File names leave a percent sign that
starts no escape as it is; the options behind them do not allow one, and write a space as a plus.
-/

set_option autoImplicit false

namespace RegisterMachine.Percent

/-- The byte that two hexadecimal digits give. -/
def byte? (a b : Char) : Option UInt8 :=
  match Hex.value? a, Hex.value? b with
  | some high, some low => some (UInt8.ofNat (16 * high + low))
  | _, _ => none

def charBytes (c : Char) : List UInt8 :=
  Utf8.encode (String.singleton c)

/-- The bytes of a text whose first `pending` characters belong to an escape that is already known. -/
def decodeAt : Nat → List Char → List UInt8
  | _, [] => []
  | pending + 1, _ :: rest => decodeAt pending rest
  | 0, c :: rest =>
    match c, rest with
    | '%', a :: b :: _ =>
      match byte? a b with
      | some byte => byte :: decodeAt 2 rest
      | none => charBytes c ++ decodeAt 0 rest
    | _, _ => charBytes c ++ decodeAt 0 rest

/-- The bytes of a text. -/
def decode (chars : List Char) : List UInt8 :=
  decodeAt 0 chars

/-- Like `decodeAt`, for options. A percent sign that starts no escape is an error, which shows the
three bytes from it on. -/
def decodeOptionAt : Nat → List Char → Except (List UInt8) (List UInt8)
  | _, [] => .ok []
  | pending + 1, _ :: rest => decodeOptionAt pending rest
  | 0, c :: rest =>
    if c = '%' then
      let escape := rest.take 2
      match escape with
      | [a, b] =>
        match byte? a b with
        | some byte => (decodeOptionAt 2 rest).map (byte :: ·)
        | none => .error ((charBytes c ++ escape.flatMap charBytes).take 3)
      | _ => .error ((charBytes c ++ escape.flatMap charBytes).take 3)
    else
      (decodeOptionAt 0 rest).map ((if c = '+' then charBytes ' ' else charBytes c) ++ ·)

/-- The bytes of the name or the value of an option. -/
def decodeOption (chars : List Char) : Except (List UInt8) (List UInt8) :=
  decodeOptionAt 0 chars

end RegisterMachine.Percent
