/-!
# Bytes of texts

The UTF-8 form of a text, the text of a valid byte sequence, and a reading of arbitrary bytes in
which each byte that starts no character counts as one replacement character.
-/

set_option autoImplicit false

namespace RegisterMachine.Utf8

def encode (s : String) : List UInt8 :=
  s.toUTF8.data.toList

/-- The text with these bytes, if they are valid. -/
def decode? (bytes : List UInt8) : Option String :=
  String.fromUTF8? ⟨bytes.toArray⟩

/-- The character at the start of a byte sequence. -/
def firstChar? (bytes : List UInt8) : Option Char :=
  ByteArray.utf8DecodeChar? ⟨(bytes.take 4).toArray⟩ 0

/-- The characters of arbitrary bytes, of which the first `pending` belong to a character that is
already known. -/
def charsAt : Nat → List UInt8 → List Char
  | _, [] => []
  | pending + 1, _ :: rest => charsAt pending rest
  | 0, byte :: rest =>
    match firstChar? (byte :: rest) with
    | some c => c :: charsAt (c.utf8Size - 1) rest
    | none => '\ufffd' :: charsAt 0 rest

/-- The text of arbitrary bytes. -/
def readable (bytes : List UInt8) : String :=
  match decode? bytes with
  | some s => s
  | none => String.ofList (charsAt 0 bytes)

end RegisterMachine.Utf8
