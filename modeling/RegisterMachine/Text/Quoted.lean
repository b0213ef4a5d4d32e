import RegisterMachine.Text.Hex
import RegisterMachine.Text.Printable
import RegisterMachine.Text.Utf8

/-!
# Quoted text

A text between double quotes, with escapes for quotes, backslashes and whatever is not
printable. Printable characters of any script stand as they are. In arbitrary bytes, those that
start no character are escaped by their value.
-/

set_option autoImplicit false

namespace RegisterMachine.Quoted

/-- The escape of an unprintable character: a letter where one exists, else its code point. -/
def escape (c : Char) : List Char :=
  match c.toNat with
  | 0x07 => ['\\', 'a']
  | 0x08 => ['\\', 'b']
  | 0x09 => ['\\', 't']
  | 0x0A => ['\\', 'n']
  | 0x0B => ['\\', 'v']
  | 0x0C => ['\\', 'f']
  | 0x0D => ['\\', 'r']
  | n =>
    if n < 0x80 then '\\' :: 'x' :: Hex.padded 2 n
    else if n < 0x10000 then '\\' :: 'u' :: Hex.padded 4 n
    else '\\' :: 'U' :: Hex.padded 8 n

def char (c : Char) : List Char :=
  if c = '"' ∨ c = '\\' then ['\\', c]
  else if isPrintable c then [c]
  else escape c

def text (s : String) : String :=
  String.ofList ('"' :: s.toList.flatMap char ++ ['"'])

/-- The characters for arbitrary bytes, of which the first `pending` belong to a character that is
already known. -/
def bytesAt : Nat → List UInt8 → List Char
  | _, [] => []
  | pending + 1, _ :: rest => bytesAt pending rest
  | 0, byte :: rest =>
    match Utf8.firstChar? (byte :: rest) with
    | some c => char c ++ bytesAt (c.utf8Size - 1) rest
    | none => '\\' :: 'x' :: Hex.padded 2 byte.toNat ++ bytesAt 0 rest

def bytes (bytes : List UInt8) : String :=
  String.ofList ('"' :: bytesAt 0 bytes ++ ['"'])

end RegisterMachine.Quoted
