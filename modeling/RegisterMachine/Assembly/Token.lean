import RegisterMachine.Text.Decimal
import RegisterMachine.Text.Quoted

/-!
# Tokens of assembly text

The text is cut into tokens from left to right; at each place the kinds are tried in a fixed
order and the first that fits takes as many characters as it can. Blanks and comments are tokens
too, so no character is lost.
-/

set_option autoImplicit false

namespace RegisterMachine.Assembly

/-- A place in a text: line and column count from 1, in characters; the offset counts bytes. -/
structure Position where
  line : Nat := 1
  column : Nat := 1
  offset : Nat := 0
  deriving DecidableEq, Repr, Inhabited

/-- The place behind a character. -/
def Position.advance (p : Position) (c : Char) : Position :=
  if c = '\n' then { line := p.line + 1, column := 1, offset := p.offset + 1 }
  else { line := p.line, column := p.column + 1, offset := p.offset + c.utf8Size }

inductive TokenKind where
  | comment
  | lineEnd
  | blank
  | register
  | number
  | name
  | leftParen
  | rightParen
  | colon
  | comma
  deriving DecidableEq, Repr, Inhabited

structure Token where
  kind : TokenKind
  text : String
  position : Position
  deriving DecidableEq, Repr, Inhabited

def isBlank (c : Char) : Bool :=
  c == ' ' || c == '\t' || c == '\r'

def isNameStart (c : Char) : Bool :=
  c.isAlpha || c == '_' || c == '.'

def isNameChar (c : Char) : Bool :=
  c.isAlphanum || c == '_' || c == '.'

def punctuation? : Char → Option TokenKind
  | '(' => some .leftParen
  | ')' => some .rightParen
  | ':' => some .colon
  | ',' => some .comma
  | _ => none

/-- `$`, a letter, then letters and digits. -/
def register? : List Char → Option (List Char)
  | '$' :: c :: rest => if c.isAlpha then some ('$' :: c :: rest.takeWhile Char.isAlphanum) else none
  | _ => none

/-- An optional sign, then digits. -/
def number? : List Char → Option (List Char)
  | [] => none
  | c :: rest =>
    if c.isDigit then some (c :: rest.takeWhile Char.isDigit)
    else if c == '-' || c == '+' then
      let digits := rest.takeWhile Char.isDigit
      if digits.isEmpty then none else some (c :: digits)
    else none

/-- The kind and the characters of the token at the start of a text. -/
def lexeme? : List Char → Option (TokenKind × List Char)
  | [] => none
  | c :: rest =>
    if c == ';' || c == '#' then some (.comment, c :: rest.takeWhile (· ≠ '\n'))
    else if c == '\n' then some (.lineEnd, [c])
    else if isBlank c then some (.blank, c :: rest.takeWhile isBlank)
    else if let some text := register? (c :: rest) then some (.register, text)
    else if let some text := number? (c :: rest) then some (.number, text)
    else if isNameStart c then some (.name, c :: rest.takeWhile isNameChar)
    else (punctuation? c).map fun kind => (kind, [c])

/-- A place where no token starts, and the text from there on. -/
structure LexicalError where
  position : Position
  rest : List Char
  deriving DecidableEq, Repr, Inhabited

/-- The tokens of a text that starts at `p`, of which the first `pending` characters belong to a
token that is already known. -/
def scan : Nat → Position → List Char → Except LexicalError (List Token)
  | _, _, [] => .ok []
  | pending + 1, p, c :: rest => scan pending (p.advance c) rest
  | 0, p, c :: rest =>
    match lexeme? (c :: rest) with
    | none => .error { position := p, rest := c :: rest }
    | some (kind, text) =>
      match scan (text.length - 1) (p.advance c) rest with
      | .error e => .error e
      | .ok tokens => .ok ({ kind, text := String.ofList text, position := p } :: tokens)

/-- The text with a line end at its end. -/
def terminated (source : String) : List Char :=
  if source.toList.getLast? = some '\n' then source.toList else source.toList ++ ['\n']

/-- All tokens of a text, blanks and comments included. -/
def tokens (source : String) : Except LexicalError (List Token) :=
  scan 0 {} (terminated source)

/-- Whether the token matters to the grammar. -/
def Token.isSignificant (t : Token) : Bool :=
  t.kind ≠ .blank && t.kind ≠ .comment

/-- At most sixteen characters of the rest are shown. -/
def LexicalError.sample (e : LexicalError) : String :=
  if e.rest.length > 16 then String.ofList (e.rest.take 16) ++ "..." else String.ofList e.rest

end RegisterMachine.Assembly
