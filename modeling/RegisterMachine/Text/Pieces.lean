/-!
# Pieces of texts

Texts that are divided by a character.
-/

set_option autoImplicit false

namespace RegisterMachine

/-- The pieces of a text between the places where a character stands. -/
def pieces (divider : Char) : List Char → List (List Char)
  | [] => [[]]
  | c :: rest =>
    if c = divider then [] :: pieces divider rest
    else
      match pieces divider rest with
      | [] => [[c]]
      | piece :: more => (c :: piece) :: more

/-- What stands before a character for the first time, and what stands after it. -/
def cutAt (divider : Char) (chars : List Char) : List Char × List Char :=
  (chars.takeWhile (· != divider), (chars.dropWhile (· != divider)).drop 1)

end RegisterMachine
