import RegisterMachine.Text.Decimal

/-!
# Words

The content of a register or a cell: a 64-bit signed integer, or nothing.
-/

set_option autoImplicit false

namespace RegisterMachine

/-- An optional 64-bit integer. Two words are equal when both are absent or both hold the same
number, which is equality of options. -/
abbrev Word := Option Int64

namespace Word

def text : Word → String
  | none => "null"
  | some n => Decimal.ofInt64 n

end Word

end RegisterMachine
