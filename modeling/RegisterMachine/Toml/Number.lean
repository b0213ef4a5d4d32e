import RegisterMachine.Text.Literal
import RegisterMachine.Toml.Value

/-!
# TOML numbers and moments

Integers in four bases, numbers with a fraction or an exponent, and moments in time. Underscores
stand between digits only, a decimal number has no leading zeros, and a number has to fit its 64-bit
type.
-/

set_option autoImplicit false

namespace RegisterMachine.Toml

def isDigit (c : Char) : Bool :=
  '0' ≤ c && c ≤ '9'

def isHexDigit (c : Char) : Bool :=
  isDigit c || ('a' ≤ c && c ≤ 'f') || ('A' ≤ c && c ≤ 'F')

/-- Whether each underscore follows a digit and the text ends in one; `after` tells whether a digit
comes before the text. -/
def underscoresFit : (after : Bool) → List Char → Bool
  | after, [] => after
  | after, '_' :: rest => after && underscoresFit false rest
  | _, c :: rest => underscoresFit (isHexDigit c) rest

def hasLeadingZero : List Char → Bool
  | '0' :: c :: _ => !(c == 'b' || c == 'o' || c == 'x')
  | '+' :: '0' :: _ :: _ => true
  | '-' :: '0' :: _ :: _ => true
  | _ => false

def integer? (chars : List Char) : Option Value :=
  if underscoresFit false chars && !hasLeadingZero chars then
    match Literal.readInt64 (String.ofList chars) with
    | .ok n => some (.integer n)
    | .error _ => none
  else none

/-- The parts of a number between points and exponent marks, empty ones left out. -/
def realParts (chars : List Char) : List (List Char) :=
  let (parts, last) := chars.foldl (fun (parts, part) c =>
    if c == '.' || c == 'e' || c == 'E' then (parts ++ [part], []) else (parts, part ++ [c]))
    (([], []) : List (List Char) × List Char)
  (parts ++ [last]).filter (!·.isEmpty)

def pointsFit : List Char → Bool
  | [] => true
  | '.' :: c :: rest => isDigit c && pointsFit (c :: rest)
  | ['.'] => false
  | _ :: rest => pointsFit rest

def dropSign : List Char → List Char
  | '+' :: rest => rest
  | '-' :: rest => rest
  | chars => chars

/-- The digits of a decimal number without its point, and its exponent of ten. -/
def decimalForm (chars : List Char) : Option (List Char × Int) :=
  let whole := chars.takeWhile isDigit
  let rest := chars.dropWhile isDigit
  let (fraction, rest) :=
    match rest with
    | '.' :: rest => (rest.takeWhile isDigit, rest.dropWhile isDigit)
    | rest => ([], rest)
  let digits := whole ++ fraction
  if digits.isEmpty then none
  else
    match rest with
    | [] => some (digits, -fraction.length)
    | c :: rest =>
      if c == 'e' || c == 'E' then
        let exponent := dropSign rest
        if exponent.isEmpty || !exponent.all isDigit then none
        else
          let size : Int := Nat.ofDigitChars 10 (exponent.dropWhile (· == '0')) 0
          let size := if rest.head? = some '-' then -size else size
          some (digits, size - fraction.length)
      else none

/-- Whether the nearest 64-bit number with a fraction is finite: the least that is not lies half a
unit of the last place above the greatest finite one. -/
def isFinite (digits : List Char) (exponent : Int) : Bool :=
  let digits := digits.dropWhile (· == '0')
  let m := Nat.ofDigitChars 10 digits 0
  let magnitude := digits.length + exponent
  if m = 0 ∨ magnitude < 300 then true
  else if magnitude > 310 then false
  else
    let bound := Nat.pow 2 1024 - Nat.pow 2 970
    m * Nat.pow 10 exponent.toNat < bound * Nat.pow 10 (-exponent).toNat

def real? (chars : List Char) : Option Value :=
  let parts := realParts chars
  if parts.all (underscoresFit false) && !((parts.head?.map hasLeadingZero).getD false)
      && pointsFit chars then
    match decimalForm (dropSign (chars.filter (· != '_'))) with
    | some (digits, exponent) => if isFinite digits exponent then some .real else none
    | none => none
  else none

/-- Exactly `n` digits at the start of a text. -/
def fixedDigits (n : Nat) (chars : List Char) : Option (Nat × List Char) :=
  let digits := chars.take n
  if digits.length = n ∧ digits.all isDigit then some (Nat.ofDigitChars 10 digits 0, chars.drop n)
  else none

def expect (c : Char) : List Char → Option (List Char)
  | d :: rest => if d = c then some rest else none
  | [] => none

def daysIn (year month : Nat) : Nat :=
  if month = 2 then
    if year % 4 = 0 ∧ (year % 100 ≠ 0 ∨ year % 400 = 0) then 29 else 28
  else if month = 4 ∨ month = 6 ∨ month = 9 ∨ month = 11 then 30
  else 31

/-- What follows a date at the start of a text. -/
def afterDate (chars : List Char) : Option (List Char) := do
  let (year, rest) ← fixedDigits 4 chars
  let (month, rest) ← fixedDigits 2 (← expect '-' rest)
  let (day, rest) ← fixedDigits 2 (← expect '-' rest)
  if 1 ≤ month ∧ month ≤ 12 ∧ 1 ≤ day ∧ day ≤ daysIn year month then some rest else none

/-- What follows a fraction of a second, if there is one. -/
def afterFraction : List Char → List Char
  | '.' :: c :: rest => if isDigit c then rest.dropWhile isDigit else '.' :: c :: rest
  | chars => chars

/-- What follows a time of day at the start of a text. The seconds may be left out. -/
def afterTime (chars : List Char) : Option (List Char) := do
  let (hour, rest) ← fixedDigits 2 chars
  let (minute, rest) ← fixedDigits 2 (← expect ':' rest)
  if 24 ≤ hour ∨ 60 ≤ minute then none
  else
    match rest with
    | ':' :: rest =>
      let (second, rest) ← fixedDigits 2 rest
      if 60 ≤ second then none else some (afterFraction rest)
    | rest => some rest

/-- Whether a text is a distance from universal time. -/
def isZone : List Char → Bool
  | ['Z'] => true
  | [sign, a, b, ':', c, d] =>
    (sign == '+' || sign == '-') &&
      match fixedDigits 2 [a, b], fixedDigits 2 [c, d] with
      | some (hours, _), some (minutes, _) => hours ≤ 24 && minutes ≤ 60
      | _, _ => false
  | _ => false

/-- A date, a time of day, or both with or without a zone. -/
def moment? (chars : List Char) : Option Value :=
  let plain := chars.map fun c => if c = 'z' then 'Z' else if c = 't' ∨ c = ' ' then 'T' else c
  let fits :=
    match afterDate plain with
    | some [] => true
    | some ('T' :: rest) =>
      match afterTime rest with
      | some rest => rest.isEmpty || isZone rest
      | none => false
    | some _ => false
    | none => afterTime plain == some []
  if fits then some .moment else none

def trimRight (chars : List Char) : List Char :=
  (chars.reverse.dropWhile (· == ' ')).reverse

/-- An integer in base two, eight or sixteen, of which the marker has been read. -/
def readMarked (marker : Char) (isOfBase : Char → Bool) (chars : List Char) :
    Option (Value × List Char) :=
  if (chars.head?.map isOfBase).getD false then
    let body := chars.takeWhile fun c => isOfBase c || c == '_'
    (integer? ('0' :: marker :: body)).map fun v => (v, chars.drop body.length)
  else none

/-- A decimal number after its sign, if it has one. -/
def readDecimal (sign chars : List Char) : Option (Value × List Char) :=
  let digits := chars.takeWhile fun c => isDigit c || c == '_'
  let rest := chars.drop digits.length
  if digits.isEmpty then none
  else
    match rest with
    | c :: _ =>
      if c == '.' || c == 'e' || c == 'E' then
        let body := chars.takeWhile fun c =>
          isDigit c || c == '_' || c == '.' || c == '-' || c == '+' || c == 'e' || c == 'E'
        (real? (sign ++ body)).map fun v => (v, chars.drop body.length)
      else (integer? (sign ++ digits)).map fun v => (v, rest)
    | [] => (integer? (sign ++ digits)).map fun v => (v, rest)

def readMoment (chars : List Char) : Option (Value × List Char) :=
  let body := chars.takeWhile fun c =>
    isDigit c || c == '-' || c == ':' || c == 'T' || c == 't' || c == ' ' || c == '.' || c == 'Z'
      || c == 'z' || c == '+'
  (moment? (trimRight body)).map fun v => (v, chars.drop body.length)

/-- A number or moment that starts with a digit. -/
def readDigits (chars : List Char) : Option (Value × List Char) :=
  match chars with
  | '0' :: 'b' :: rest => readMarked 'b' (fun c => c == '0' || c == '1') rest
  | '0' :: 'o' :: rest => readMarked 'o' (fun c => '0' ≤ c && c ≤ '7') rest
  | '0' :: 'x' :: rest => readMarked 'x' isHexDigit rest
  | chars =>
    match chars.dropWhile isDigit with
    | '-' :: _ => readMoment chars
    | ':' :: _ => readMoment chars
    | _ => readDecimal [] chars

/-- A number whose sign has been read. -/
def readSigned (sign : Char) (chars : List Char) : Option (Value × List Char) :=
  match chars with
  | 'i' :: 'n' :: 'f' :: rest => some (.real, rest)
  | 'n' :: 'a' :: 'n' :: rest => some (.real, rest)
  | c :: _ => if isDigit c then readDecimal [sign] chars else none
  | [] => none

end RegisterMachine.Toml
