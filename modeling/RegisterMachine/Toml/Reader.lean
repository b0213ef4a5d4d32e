import RegisterMachine.Text.Utf8
import RegisterMachine.Toml.Number
import RegisterMachine.Toml.Text

/-!
# Reading TOML

The statements of a TOML text, version 1.1. A text that breaks a rule anywhere has no reading at
all. Values nest, so their readers recurse on fuel; each of them consumes a character before it
calls another twice, and twice the length of the text is enough.
-/

set_option autoImplicit false

namespace RegisterMachine.Toml

/-- The characters of a file. A byte order mark at its start is skipped. -/
def decode (bytes : List UInt8) : Option (List Char) :=
  let body :=
    match bytes with
    | 0xff :: 0xfe :: rest => rest
    | 0xfe :: 0xff :: rest => rest
    | 0xef :: 0xbb :: 0xbf :: rest => rest
    | bytes => bytes
  (Utf8.decode? body).map String.toList

/-- Whether a text has no control characters but tabs and line breaks, and no carriage return
outside a line break. -/
def isClean : List Char → Bool
  | [] => true
  | c :: rest =>
    if c = '\r' then rest.head? == some '\n' && isClean rest
    else if c = '\t' ∨ c = '\n' then isClean rest
    else !(c.toNat < 0x20 || c.toNat = 0x7f) && isClean rest

def skipBlanks (chars : List Char) : List Char :=
  chars.dropWhile isBlank

def skipComment (chars : List Char) : List Char :=
  chars.dropWhile (!isBreak ·)

/-- Skips blanks, line breaks and comments. -/
def skipFiller : (comment : Bool) → List Char → List Char
  | _, [] => []
  | true, c :: rest => skipFiller (!isBreak c) rest
  | false, c :: rest =>
    if isBlank c || isBreak c then skipFiller false rest
    else if c = '#' then skipFiller true rest
    else c :: rest

def isBareKeyChar (c : Char) : Bool :=
  ('a' ≤ c && c ≤ 'z') || ('A' ≤ c && c ≤ 'Z') || isDigit c || c == '_' || c == '-'

/-- One part of a key. -/
def readKeyPart (chars : List Char) : Option (String × List Char) :=
  match skipBlanks chars with
  | '"' :: rest => readShort '"' rest
  | '\'' :: rest => readShort '\'' rest
  | chars =>
    let name := chars.takeWhile isBareKeyChar
    if name.isEmpty then none else some (String.ofList name, chars.drop name.length)

/-- A key and what follows it and the blanks after it. -/
def readKey : Nat → List Char → Option (Key × List Char)
  | 0, _ => none
  | fuel + 1, chars =>
    match readKeyPart chars with
    | none => none
    | some (part, rest) =>
      match skipBlanks rest with
      | '.' :: rest => (readKey fuel rest).map fun (key, rest) => (part :: key, rest)
      | rest => some ([part], rest)

mutual

/-- A value after blanks. -/
def readValue : Nat → List Char → Option (Value × List Char)
  | 0, _ => none
  | fuel + 1, chars =>
    match skipBlanks chars with
    | '[' :: rest => (readItems fuel rest).map fun (items, rest) => (.array items, rest)
    | '\x7b' :: rest => (readEntries fuel rest).map fun (entries, rest) => (.table entries, rest)
    | '"' :: '"' :: '"' :: rest => (readLong '"' rest).map fun (s, rest) => (.text s, rest)
    | '"' :: rest => (readShort '"' rest).map fun (s, rest) => (.text s, rest)
    | '\'' :: '\'' :: '\'' :: rest => (readLong '\'' rest).map fun (s, rest) => (.text s, rest)
    | '\'' :: rest => (readShort '\'' rest).map fun (s, rest) => (.text s, rest)
    | 't' :: 'r' :: 'u' :: 'e' :: rest => some (.truth true, rest)
    | 'f' :: 'a' :: 'l' :: 's' :: 'e' :: rest => some (.truth false, rest)
    | 'i' :: 'n' :: 'f' :: rest => some (.real, rest)
    | 'n' :: 'a' :: 'n' :: rest => some (.real, rest)
    | '+' :: rest => readSigned '+' rest
    | '-' :: rest => readSigned '-' rest
    | c :: rest => if isDigit c then readDigits (c :: rest) else none
    | [] => none

/-- The items of an array up to its closing bracket. A comma may follow the last one. -/
def readItems : Nat → List Char → Option (List Value × List Char)
  | 0, _ => none
  | fuel + 1, chars =>
    match skipFiller false chars with
    | ']' :: rest => some ([], rest)
    | chars =>
      match readValue fuel chars with
      | none => none
      | some (value, rest) =>
        match skipFiller false rest with
        | ',' :: rest => (readItems fuel rest).map fun (values, rest) => (value :: values, rest)
        | ']' :: rest => some ([value], rest)
        | _ => none

/-- The entries of an inline table up to its closing brace. A comma may follow the last one. -/
def readEntries : Nat → List Char → Option (List (Key × Value) × List Char)
  | 0, _ => none
  | fuel + 1, chars =>
    match skipFiller false chars with
    | '\x7d' :: rest => some ([], rest)
    | chars =>
      match readKey (chars.length + 1) chars with
      | some (key, '=' :: rest) =>
        match readValue fuel rest with
        | none => none
        | some (value, rest) =>
          match skipFiller false rest with
          | ',' :: rest =>
            (readEntries fuel rest).map fun (entries, rest) => ((key, value) :: entries, rest)
          | '\x7d' :: rest => some ([(key, value)], rest)
          | _ => none
      | _ => none

end

/-- One statement, without the end of its line. -/
def readStatement (chars : List Char) : Option (Statement × List Char) :=
  let fuel := 2 * chars.length + 2
  match chars with
  | '[' :: '[' :: rest =>
    match readKey fuel rest with
    | some (key, ']' :: ']' :: rest) => some (.arrayHeader key, rest)
    | _ => none
  | '[' :: rest =>
    match readKey fuel rest with
    | some (key, ']' :: rest) => some (.header key, rest)
    | _ => none
  | chars =>
    match readKey fuel chars with
    | some (key, '=' :: rest) =>
      (readValue fuel rest).map fun (value, rest) => (.assign key value, rest)
    | _ => none

/-- The statements up to the end of the text. Each ends its line, apart from blanks and a comment. -/
def readStatements : Nat → List Char → Option (List Statement)
  | 0, _ => none
  | fuel + 1, chars =>
    match skipFiller false chars with
    | [] => some []
    | chars =>
      match readStatement chars with
      | none => none
      | some (statement, rest) =>
        match skipBlanks rest with
        | [] => some [statement]
        | c :: rest =>
          if c = '#' ∨ isBreak c then
            let rest := if c = '#' then skipComment rest else rest
            (readStatements fuel rest).map (statement :: ·)
          else none

/-- The statements of a file. -/
def read (bytes : List UInt8) : Option (List Statement) :=
  match decode bytes with
  | none => none
  | some chars => if isClean chars then readStatements (chars.length + 1) chars else none

end RegisterMachine.Toml
