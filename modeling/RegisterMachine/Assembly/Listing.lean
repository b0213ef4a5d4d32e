import RegisterMachine.Assembly.Token

/-!
# Listings

A listing is assembly text as a sequence of label definitions and statements. A statement takes
operands as long as they follow on its line; one comma may stand behind each operand. Several
labels and statements may share a line, but a line end ends a statement.

`readListing` follows the grammar alone. `parse` also counts what the grammar repeats, and refuses a
text as soon as a count reaches `repetitionLimit`.
-/

set_option autoImplicit false

namespace RegisterMachine.Assembly

/-- An operand as it is written. -/
inductive OperandText where
  | register (token : String)
  | address (offset : Option String) (base : String)
  | number (token : String)
  | name (token : String)
  deriving DecidableEq, Repr, Inhabited

structure Operand where
  position : Position
  text : OperandText
  deriving DecidableEq, Repr, Inhabited

structure Statement where
  position : Position
  mnemonic : String
  operands : List Operand
  deriving DecidableEq, Repr, Inhabited

inductive Line where
  | label (position : Position) (name : String)
  | statement (s : Statement)
  deriving DecidableEq, Repr, Inhabited

def Line.position : Line → Position
  | .label position _ => position
  | .statement s => s.position

/-- What could have stood in the place of a token that does not fit. -/
inductive Expectation where
  | unsaid
  | baseRegister
  | closingParen
  deriving DecidableEq, Repr, Inhabited

def Expectation.text : Expectation → String
  | .unsaid => ""
  | .baseRegister => " (expected <register> \")\")"
  | .closingParen => " (expected \")\")"

/-- What the grammar repeats: line ends in a row, the lines of a text, the operands of a
statement. -/
inductive Repetition where
  | lineEnds
  | lines
  | operands
  deriving DecidableEq, Repr, Inhabited

/-- The rule of the grammar that is repeated. -/
def Repetition.text : Repetition → String
  | .lineEnds => "<eol>*"
  | .lines => "(Line <eol>*)*"
  | .operands => "(Operand \",\"?)*"

/-- Nothing is repeated so often. -/
def repetitionLimit : Nat := 1000000

inductive SyntaxError where
  | unreadable (e : LexicalError)
  | unexpected (t : Token) (expected : Expectation)
  /-- The text ends inside an address. -/
  | unfinished
  /-- Too many repetitions stand in front of the position. -/
  | excessive (what : Repetition) (position : Position)
  deriving DecidableEq, Repr, Inhabited

namespace SyntaxError

def place (fileName : String) (p : Position) : String :=
  (if fileName = "" then "" else fileName ++ ":") ++ Decimal.ofNat p.line ++ ":"
    ++ Decimal.ofNat p.column ++ ": "

/-- The message, with the place in the named file in front. -/
def message (fileName : String) : SyntaxError → String
  | .unreadable e =>
    place fileName e.position ++ "lexer: invalid input text " ++ Quoted.text e.sample
  | .unexpected t expected =>
    place fileName t.position ++ "unexpected token " ++ Quoted.text t.text ++ expected.text
  | .unfinished => "unexpected end of text"
  | .excessive what p =>
    place fileName p ++ "too many iterations of " ++ what.text ++ " (> "
      ++ Decimal.ofNat repetitionLimit ++ ")"

end SyntaxError

/-- The base register of an address, from what follows the opening parenthesis. -/
def addressBase : List Token → Except SyntaxError String
  | { kind := .register, text := base, .. } :: { kind := .rightParen, .. } :: _ => .ok base
  | { kind := .register, .. } :: t :: _ => .error (.unexpected t .closingParen)
  | { kind := .register, .. } :: [] => .error .unfinished
  | t :: _ => .error (.unexpected t .baseRegister)
  | [] => .error .unfinished

/-- What has been counted in front of a token. -/
structure Tally where
  /-- Where the text ends. -/
  finish : Position
  /-- The lines that are complete. -/
  lines : Nat := 0
  /-- The line ends that directly precede the token. -/
  lineEnds : Nat := 0
  deriving DecidableEq, Repr, Inhabited

namespace Tally

def addLine (n : Tally) : Tally :=
  { n with lines := n.lines + 1, lineEnds := 0 }

def addLineEnd (n : Tally) : Tally :=
  { n with lineEnds := n.lineEnds + 1 }

/-- What there is too much of in front of `next`. Line ends belong to the line in front of them, a
comma belongs to its operand, and the end of the text completes a statement. -/
def excess? (n : Tally) (pending : Option Statement) (commaAllowed : Bool) (next : Option Token) :
    Option Repetition :=
  match pending with
  | none =>
    if repetitionLimit ≤ n.lineEnds then some .lineEnds
    else if next.any (·.kind = .lineEnd) then none
    else if repetitionLimit ≤ n.lines then some .lines
    else none
  | some s =>
    if commaAllowed && next.any (·.kind = .comma) then none
    else if repetitionLimit ≤ s.operands.length then some .operands
    else if next.isNone && repetitionLimit ≤ n.lines + 1 then some .lines
    else none

end Tally

/-- Refuses excess in front of `next`. Without a tally nothing is counted and nothing refused. -/
def allow (tally : Option Tally) (pending : Option Statement) (commaAllowed : Bool)
    (next : Option Token) : Except SyntaxError Unit :=
  match tally with
  | none => .ok ()
  | some n =>
    match n.excess? pending commaAllowed next with
    | some what => .error (.excessive what (next.elim n.finish Token.position))
    | none => .ok ()

/-- The lines of a token sequence without blanks and comments, as far as the tally admits them.
The second argument is the statement that is still taking operands, if there is one; the third tells
whether a comma may follow. -/
def readWithin : Option Tally → Option Statement → Bool → List Token →
    Except SyntaxError (List Line)
  | tally, none, comma, [] => do
    allow tally none comma none
    return []
  | tally, some s, comma, [] => do
    allow tally (some s) comma none
    return [.statement s]
  | tally, none, comma, t :: rest =>
    match allow tally none comma t with
    | .error e => .error e
    | .ok () =>
      match t.kind, rest with
      | .lineEnd, rest => readWithin (tally.map Tally.addLineEnd) none false rest
      | .name, { kind := .colon, .. } :: rest => do
        return .label t.position t.text :: (← readWithin (tally.map Tally.addLine) none false rest)
      | .name, rest =>
        readWithin tally (some { position := t.position, mnemonic := t.text, operands := [] }) false
          rest
      | _, _ => .error (.unexpected t .unsaid)
  | tally, some s, comma, t :: rest =>
    let take (text : OperandText) : Statement :=
      { s with operands := s.operands ++ [{ position := t.position, text }] }
    match allow tally (some s) comma t with
    | .error e => .error e
    | .ok () =>
      match t.kind, rest with
      | .lineEnd, rest => do
        return .statement s ::
          (← readWithin (tally.map fun n => n.addLine.addLineEnd) none false rest)
      | .comma, rest =>
        if comma then readWithin tally (some s) false rest else .error (.unexpected t .unsaid)
      | .register, rest => readWithin tally (some (take (.register t.text))) true rest
      | .name, rest => readWithin tally (some (take (.name t.text))) true rest
      | .leftParen, base :: close :: rest => do
        let register ← addressBase [base, close]
        readWithin tally (some (take (.address none register))) true rest
      | .leftParen, rest => do
        discard (addressBase rest)
        .error .unfinished
      | .number, { kind := .leftParen, .. } :: base :: close :: rest => do
        let register ← addressBase [base, close]
        readWithin tally (some (take (.address (some t.text) register))) true rest
      | .number, { kind := .leftParen, .. } :: rest => do
        discard (addressBase rest)
        .error .unfinished
      | .number, rest => readWithin tally (some (take (.number t.text))) true rest
      | _, _ => .error (.unexpected t .unsaid)

/-- The lines of a token sequence, however many there are. -/
abbrev readLines (pending : Option Statement) (commaAllowed : Bool) (ts : List Token) :
    Except SyntaxError (List Line) :=
  readWithin none pending commaAllowed ts

/-- Reads a listing by its grammar. A text without a line end at its end gets one. -/
def readListing (source : String) : Except SyntaxError (List Line) :=
  match tokens source with
  | .error e => .error (.unreadable e)
  | .ok all => readLines none false (all.filter Token.isSignificant)

/-- Reads a listing in which nothing is repeated `repetitionLimit` times. -/
def parse (source : String) : Except SyntaxError (List Line) :=
  match tokens source with
  | .error e => .error (.unreadable e)
  | .ok all =>
    readWithin (some { finish := (terminated source).foldl Position.advance {} }) none false
      (all.filter Token.isSignificant)

end RegisterMachine.Assembly
