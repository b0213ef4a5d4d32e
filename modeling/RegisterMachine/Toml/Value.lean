/-!
# TOML values

What a TOML text says, statement by statement. Numbers with a fraction and moments in time are
checked when they are read, but no setting takes one, so their content is not kept.
-/

set_option autoImplicit false

namespace RegisterMachine.Toml

/-- The parts of a dotted key. -/
abbrev Key := List String

inductive Value where
  | text (s : String)
  | integer (n : Int64)
  | real
  | truth (b : Bool)
  | moment
  | array (items : List Value)
  /-- An inline table. -/
  | table (entries : List (Key × Value))
  deriving Repr, Inhabited

inductive Statement where
  /-- A table header. -/
  | header (key : Key)
  /-- The header of a further table in an array of tables. -/
  | arrayHeader (key : Key)
  | assign (key : Key) (value : Value)
  deriving Repr, Inhabited

end RegisterMachine.Toml
