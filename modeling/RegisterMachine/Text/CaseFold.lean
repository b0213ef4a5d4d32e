/-!
# Comparison without regard to case

Two texts are alike when they agree character by character up to simple case folding. One of
the two is always an ASCII keyword here, so only the characters that fold to an ASCII letter
matter: the two ASCII cases, the long s and the Kelvin sign.
-/

set_option autoImplicit false

namespace RegisterMachine.CaseFold

/-- The representative of the characters that fold together with an ASCII letter. -/
def fold (c : Char) : Char :=
  match c with
  | '\u017f' => 's'
  | '\u212a' => 'k'
  | c => c.toLower

/-- Whether `s` is the ASCII text `keyword` up to case. -/
def matchesKeyword (s keyword : String) : Bool :=
  s.toList.map fold == keyword.toList.map fold

/-- The lower case of a character, for the characters whose lower case is in ASCII. -/
def lower (c : Char) : Char :=
  match c with
  | '\u0130' => 'i'
  | '\u212a' => 'k'
  | c => c.toLower

end RegisterMachine.CaseFold
