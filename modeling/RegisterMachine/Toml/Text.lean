import RegisterMachine.Text.Hex

/-!
# TOML strings

Basic strings stand in double quotes and know escapes, literal strings stand in single quotes and do
not. Three quotes open a string that may run over several lines. A string is first cut out of the
text, where every backslash has to start an escape or end a line, and then its escapes are resolved.
-/

set_option autoImplicit false

namespace RegisterMachine.Toml

def isBlank (c : Char) : Bool :=
  c == ' ' || c == '\t'

def isBreak (c : Char) : Bool :=
  c == '\n' || c == '\r'

/-- The character with the code that the hexadecimal digits give. -/
def codeChar? (digits : List Char) : Option Char :=
  match digits.mapM Hex.value? with
  | none => none
  | some values =>
    let n := values.foldl (fun n v => n * 16 + v) 0
    if n.isValidChar then some (Char.ofNat n) else none

def simpleEscape? : Char → Option Char
  | 'b' => some '\x08'
  | 't' => some '\t'
  | 'n' => some '\n'
  | 'f' => some '\x0c'
  | 'r' => some '\r'
  | 'e' => some '\x1b'
  | '"' => some '"'
  | '\\' => some '\\'
  | _ => none

/-- How many hexadecimal digits belong to the escape that a character marks, if it marks one. A blank
after a backslash may lead to the end of the line. -/
def escapeDigits? (c : Char) : Option Nat :=
  match c with
  | 'x' => some 2
  | 'u' => some 4
  | 'U' => some 8
  | c => if isBlank c || (simpleEscape? c).isSome then some 0 else none

/-- Whether a character and the text after it can follow a backslash on its line. -/
def isEscape (c : Char) (rest : List Char) : Bool :=
  match escapeDigits? c with
  | none => false
  | some n => (rest.take n).length == n && (rest.take n).all fun d => (Hex.value? d).isSome

/-- Puts characters before the first part of a result. -/
def before (chars : List Char) :
    Option (List Char × List Char) → Option (List Char × List Char)
  | some (body, rest) => some (chars ++ body, rest)
  | none => none

/-- The body of a string on one line, and what follows its closing quote. -/
def shortBody (quote : Char) : List Char → Option (List Char × List Char)
  | [] => none
  | c :: rest =>
    if c = quote then some ([], rest)
    else if isBreak c then none
    else if c = '\\' ∧ quote = '"' then
      match rest with
      | [] => none
      | d :: rest => if isEscape d rest then before [c, d] (shortBody quote rest) else none
    else before [c] (shortBody quote rest)

/-- The body of a string over several lines, and what follows its closing quotes. The last three of
a run of quotes close the string if the run has at least three and at most `limit` of them; `run`
counts the quotes just seen. -/
def longBody (quote : Char) : (run limit : Nat) → List Char → Option (List Char × List Char)
  | run, _, [] => if 3 ≤ run then some (List.replicate (run - 3) quote, []) else none
  | run, limit, c :: rest =>
    if c = quote then
      if run < limit then longBody quote (run + 1) limit rest else none
    else if 3 ≤ run then some (List.replicate (run - 3) quote, c :: rest)
    else if c = '\\' ∧ quote = '"' then
      match rest with
      | [] => none
      | d :: rest =>
        if isBreak d || isEscape d rest then
          before (List.replicate run quote ++ [c, d])
            (longBody quote 0 (if d = '\\' then 6 else 5) rest)
        else none
    else before (List.replicate run quote ++ [c]) (longBody quote 0 5 rest)

/-- A line break right after the opening quotes does not belong to the string. -/
def dropFirstBreak : List Char → List Char
  | '\n' :: rest => rest
  | '\r' :: '\n' :: rest => rest
  | chars => chars

/-- Removes each backslash at the end of a line, with the blanks and line breaks that follow it. -/
def joinLines : (skipping : Bool) → List Char → List Char
  | _, [] => []
  | skipping, c :: rest =>
    if skipping && (isBlank c || isBreak c) then joinLines true rest
    else if c = '\\' then
      match rest with
      | [] => [c]
      | d :: after =>
        if d = '\\' then c :: d :: joinLines false after
        else if ((d :: after).takeWhile fun x => isBlank x || isBreak x).contains '\n' then
          joinLines true (d :: after)
        else c :: joinLines false (d :: after)
    else c :: joinLines false rest

/-- Resolves escapes, from the end of the string to its start. -/
def unescape : List Char → Option (List Char)
  | [] => some []
  | '\\' :: 'x' :: a :: b :: rest => do
    return (← codeChar? [a, b]) :: (← unescape rest)
  | '\\' :: 'u' :: a :: b :: c :: d :: rest => do
    return (← codeChar? [a, b, c, d]) :: (← unescape rest)
  | '\\' :: 'U' :: a :: b :: c :: d :: e :: f :: g :: h :: rest => do
    return (← codeChar? [a, b, c, d, e, f, g, h]) :: (← unescape rest)
  | '\\' :: c :: rest => do
    return (← simpleEscape? c) :: (← unescape rest)
  | c :: rest => if c = '\\' then none else (unescape rest).map (c :: ·)

/-- A string on one line whose opening quote has been read. -/
def readShort (quote : Char) (chars : List Char) : Option (String × List Char) :=
  match shortBody quote chars with
  | none => none
  | some (body, rest) =>
    if quote = '"' then (unescape body).map fun s => (String.ofList s, rest)
    else some (String.ofList body, rest)

/-- A string over several lines whose three opening quotes have been read. -/
def readLong (quote : Char) (chars : List Char) : Option (String × List Char) :=
  match longBody quote 0 5 chars with
  | none => none
  | some (body, rest) =>
    let body := dropFirstBreak body
    if quote = '"' then (unescape (joinLines false body)).map fun s => (String.ofList s, rest)
    else some (String.ofList body, rest)

end RegisterMachine.Toml
