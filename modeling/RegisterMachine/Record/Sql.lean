import RegisterMachine.Text.Decimal
import RegisterMachine.Text.Hex

/-!
# Lexemes of SQL

How a text in the language of databases is divided: into words, texts between quotes, numbers and
signs, with blanks and comments between them. Some words are reserved and name nothing unless they
stand between quotes.
-/

set_option autoImplicit false

namespace RegisterMachine.Sql

inductive Lexeme where
  | word (text : String)
  /-- A text between quotes, without them. -/
  | quoted (text : String)
  | number (text : String)
  | sign (text : String)
  /-- A number with separators, bytes or a parameter, which only expressions can have. -/
  | operand
  /-- Characters that mean nothing. -/
  | unknown
  deriving DecidableEq, Repr, Inhabited

/-- A lexeme and the characters that it is made of. -/
abbrev Piece := Lexeme × String

inductive Flaw where
  /-- A lexeme does not belong where it stands. -/
  | misplaced (text : String)
  | unknownLexeme (text : String)
  | incomplete
  | unknownSchema (name : String)
  | unknownTable (name : String)
  | unknownEncoding (name : String)
  | inaccessibleDirectory
  /-- A transaction is to begin although one is open. -/
  | nestedTransaction
  /-- A transaction is to end in this way although none is open. -/
  | noTransaction (ending : String)
  deriving DecidableEq, Repr, Inhabited

def Flaw.text : Flaw → String
  | .misplaced text => "near \"" ++ text ++ "\": syntax error"
  | .unknownLexeme text => "unrecognized token: \"" ++ text ++ "\""
  | .incomplete => "incomplete input"
  | .unknownSchema name => "unknown database " ++ name
  | .unknownTable name => "no such table: " ++ name
  | .unknownEncoding name => "unsupported encoding: " ++ name
  | .inaccessibleDirectory => "not a writable directory"
  | .nestedTransaction => "cannot start a transaction within a transaction"
  | .noTransaction ending => "cannot " ++ ending ++ " - no transaction is active"

def lower (s : String) : String :=
  String.ofList (s.toList.map Char.toLower)

/-- The words that cannot be names. -/
def reserved : List String :=
  ["add", "all", "alter", "and", "as", "autoincrement", "between", "case", "check", "collate",
   "commit", "constraint", "create", "default", "deferrable", "delete", "distinct", "drop", "else",
   "escape", "except", "exists", "foreign", "from", "group", "having", "in", "index", "insert",
   "intersect", "into", "is", "isnull", "join", "limit", "not", "nothing", "notnull", "null", "on",
   "or", "order", "primary", "references", "returning", "select", "set", "table", "then", "to",
   "transaction", "union", "unique", "update", "using", "values", "when", "where"]

/-- The name that a lexeme stands for. -/
def Lexeme.name? : Lexeme → Option String
  | .word text => if reserved.contains (lower text) then none else some text
  | .quoted text => some text
  | _ => none

def isSpace (c : Char) : Bool :=
  c == ' ' || c == '\t' || c == '\n' || c == '\r' || c == '\x0c'

def isDigit (c : Char) : Bool :=
  '0' ≤ c && c ≤ '9'

def isHexDigit (c : Char) : Bool :=
  (Hex.value? c).isSome

def isNameStart (c : Char) : Bool :=
  ('a' ≤ c && c ≤ 'z') || ('A' ≤ c && c ≤ 'Z') || c == '_' || 0x80 ≤ c.toNat

def isNameChar (c : Char) : Bool :=
  isNameStart c || isDigit c || c == '$'

/-- The text up to the closing quote, how many characters it takes with the quote, and whether there
is one. A quote that is written twice belongs to the text. -/
def untilQuote (quote : Char) : List Char → List Char × Nat × Bool
  | [] => ([], 0, false)
  | c :: rest =>
    if c ≠ quote then
      let (text, n, closed) := untilQuote quote rest
      (c :: text, n + 1, closed)
    else
      match rest with
      | d :: after =>
        if d = quote then
          let (text, n, closed) := untilQuote quote after
          (quote :: text, n + 2, closed)
        else ([], 1, true)
      | [] => ([], 1, true)

/-- The length of the digits at the start of a text, with the separators among them. -/
def digitsLength (chars : List Char) : Nat :=
  (chars.takeWhile fun c => isDigit c || c == '_').length

/-- The length of an exponent at the start of a text; zero if there is none. -/
def exponentLength : List Char → Nat
  | e :: c :: rest =>
    if e = 'e' ∨ e = 'E' then
      if isDigit c then 2 + digitsLength rest
      else if (c = '+' ∨ c = '-') ∧ (rest.head?.map isDigit).getD false then 2 + digitsLength rest
      else 0
    else 0
  | _ => 0

/-- The length of a number without base at the start of a text. -/
def decimalLength (chars : List Char) : Nat :=
  let whole := digitsLength chars
  let fraction :=
    match chars.drop whole with
    | '.' :: rest => 1 + digitsLength rest
    | _ => 0
  whole + fraction + exponentLength (chars.drop (whole + fraction))

/-- The length of the number at the start of a text. -/
def numberLength (chars : List Char) : Nat :=
  match chars with
  | '0' :: x :: d :: rest =>
    if (x = 'x' ∨ x = 'X') ∧ isHexDigit d then
      3 + (rest.takeWhile fun c => isHexDigit c || c == '_').length
    else decimalLength chars
  | _ => decimalLength chars

/-- The length of a parameter after its first sign, and whether it has a name; `named` tells whether
a part of the name came before. -/
def parameterLength : (named : Bool) → List Char → Nat × Bool
  | named, [] => (0, named)
  | named, c :: rest =>
    if isNameChar c then
      let (n, ok) := parameterLength true rest
      (n + 1, ok)
    else if c = '(' ∧ named then
      let body := rest.takeWhile fun c => !isSpace c && c != '\x0b' && c != ')'
      if rest.length = body.length ∨ (rest.drop body.length).head? ≠ some ')' then
        (body.length + 1, false)
      else (body.length + 2, true)
    else
      match c, rest with
      | ':', ':' :: after =>
        let (n, ok) := parameterLength named after
        (n + 2, ok)
      | _, _ => (0, named)

/-- The bytes whose opening quote has been read: their length with the closing quote, and whether
they are well formed. -/
def bytesLength (chars : List Char) : Nat × Bool :=
  let digits := (chars.takeWhile isHexDigit).length
  if (chars.drop digits).head? = some '\'' ∧ digits % 2 = 0 then (digits + 1, true)
  else
    let body := (chars.takeWhile (· != '\'')).length
    (if body < chars.length then body + 1 else body, false)

/-- The signs of more than one character, longer ones first. -/
def longSigns : List String :=
  ["->>", "->", "==", "<=", "<>", "<<", ">=", ">>", "!=", "||"]

/-- The lexeme at the start of a text, and its length. -/
def lexeme (chars : List Char) : Lexeme × Nat :=
  match chars with
  | [] => (.unknown, 0)
  | c :: rest =>
    if (c = 'x' ∨ c = 'X') ∧ rest.head? = some '\'' then
      let (n, ok) := bytesLength (rest.drop 1)
      (if ok then .operand else .unknown, n + 2)
    else if isNameStart c then
      let text := chars.takeWhile isNameChar
      (.word (String.ofList text), text.length)
    else if isDigit c || (c == '.' && (rest.head?.map isDigit).getD false) then
      let text := chars.take (numberLength chars)
      let tail := ((chars.drop text.length).takeWhile isNameChar).length
      if tail ≠ 0 then (.unknown, text.length + tail)
      else if text.contains '_' then (.operand, text.length)
      else (.number (String.ofList text), text.length)
    else if c = '\'' ∨ c = '"' ∨ c = '\x60' then
      let (text, n, closed) := untilQuote c rest
      (if closed then .quoted (String.ofList text) else .unknown, n + 1)
    else if c = '[' then
      let text := rest.takeWhile (· != ']')
      if text.length < rest.length then (.quoted (String.ofList text), text.length + 2)
      else (.unknown, chars.length)
    else if c = '?' then (.operand, 1 + (rest.takeWhile isDigit).length)
    else if c = ':' ∨ c = '@' ∨ c = '$' ∨ c = '#' then
      let (n, ok) := parameterLength false rest
      (if ok then .operand else .unknown, n + 1)
    else
      match longSigns.find? fun sign => sign.toList.isPrefixOf chars with
      | some sign => (.sign (if sign = "==" then "=" else sign), sign.length)
      | none =>
        if "()=.,;+-*/%<>|&~".toList.contains c then (.sign (String.singleton c), 1)
        else (.unknown, 1)

/-- Skips blanks and byte order marks. A vertical tab counts as a blank after another one. -/
def skipSpace : (after : Bool) → List Char → List Char
  | _, [] => []
  | after, c :: rest =>
    if isSpace c || (after && c == '\x0b') then skipSpace true rest
    else if c = '\ufeff' then skipSpace false rest
    else c :: rest

/-- Skips to the end of a comment between `/*` and `*/`; `star` tells whether a star comes before. -/
def skipComment : (star : Bool) → List Char → List Char
  | _, [] => []
  | star, c :: rest => if star ∧ c = '/' then rest else skipComment (c == '*') rest

/-- The text behind the comment at its start, if one is there. -/
def afterComment? : List Char → Option (List Char)
  | '-' :: '-' :: rest => some (rest.dropWhile (· != '\n'))
  | '/' :: '*' :: c :: rest => some (skipComment (c == '*') rest)
  | _ => none

/-- The lexemes of a text; `fuel` exceeds its length. -/
def piecesOf : (fuel : Nat) → List Char → List Piece
  | 0, _ => []
  | fuel + 1, chars =>
    match skipSpace false chars with
    | [] => []
    | chars =>
      match afterComment? chars with
      | some rest => piecesOf fuel rest
      | none =>
        let (l, n) := lexeme chars
        (l, String.ofList (chars.take n)) :: piecesOf fuel (chars.drop n)

/-- The word `window` is reserved if a name and `as` follow it. -/
def isWindowOpening (rest : List Piece) : Bool :=
  match rest with
  | (name, _) :: (.word text, _) :: _ => name.name?.isSome && lower text == "as"
  | _ => false

/-- The lexemes of a text. -/
def read (s : String) : List Piece :=
  piecesOf (s.length + 1) s.toList

/-- The flaw of these lexemes where others are wanted. -/
def unexpected : List Piece → Flaw
  | [] => .incomplete
  | (.unknown, text) :: _ => .unknownLexeme text
  | (_, text) :: _ => .misplaced text

/-- The lexemes behind the end of a statement. -/
def endStatement : List Piece → Except Flaw (List Piece)
  | [] => .ok []
  | (.sign ";", _) :: rest => .ok rest
  | rest => .error (unexpected rest)

/-- The number that a text starts with, in base ten or sixteen; zero if it has more than 31 bits. -/
def leadingNumber (s : String) : Nat :=
  let number (base : Nat) (digits : List Char) : Nat :=
    digits.foldl (fun n d => n * base + (Hex.value? d).getD 0) 0
  let n :=
    match s.toList with
    | '0' :: x :: d :: rest =>
      if (x = 'x' ∨ x = 'X') ∧ isHexDigit d then number 16 ((d :: rest).takeWhile isHexDigit)
      else number 10 (s.toList.takeWhile isDigit)
    | chars => number 10 (chars.takeWhile isDigit)
  if n < 0x80000000 then n else 0

/-- Whether a text says yes: a number whose last byte is not zero, or one of three words. -/
def isAffirmative (s : String) : Bool :=
  if (s.toList.head?.map isDigit).getD false then leadingNumber s % 256 != 0
  else ["on", "yes", "true"].contains (lower s)

end RegisterMachine.Sql
