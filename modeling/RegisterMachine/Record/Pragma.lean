import RegisterMachine.Record.Sql

/-!
# Pragmas

A pragma sets or asks for a property of one connection to a database. It is written `name`,
`name=value` or `name(value)`, where the name of a schema and a dot may stand before the name. A name
that means nothing does no harm.

Few pragmas can be noticed from outside: those that look at the database or write to it, which may
fail, and those that say how transactions are written.
-/

set_option autoImplicit false

namespace RegisterMachine

structure Pragma where
  /-- The name of the schema, as it is written. -/
  schema : Option String := none
  name : String
  value : Option String := none
  deriving DecidableEq, Repr, Inhabited

namespace Pragma

open Sql

/-- A name or a number, which may have a sign. Three of the reserved words are values too. -/
def readValue : List Piece → Except Flaw (String × List Piece)
  | [] => .error .incomplete
  | (l, text) :: rest =>
    let word := lower text
    match l with
    | .number text => .ok (text, rest)
    | .sign s =>
      if s = "+" ∨ s = "-" then
        match rest with
        | (.number n, _) :: rest => .ok (if s = "-" then "-" ++ n else n, rest)
        | rest => .error (unexpected rest)
      else .error (.misplaced text)
    | .word _ =>
      if word = "on" ∨ word = "delete" ∨ word = "default" then .ok (text, rest)
      else
        match l.name? with
        | some name => .ok (name, rest)
        | none => .error (.misplaced text)
    | .quoted name => .ok (name, rest)
    | _ => .error (unexpected ((l, text) :: rest))

/-- Reads what follows the name. -/
def readRest (p : Pragma) : List Piece → Except Flaw (Pragma × List Piece)
  | (.sign "=", _) :: rest => do
    let (value, rest) ← readValue rest
    return ({ p with value := some value }, rest)
  | (.sign "(", _) :: rest => do
    let (value, rest) ← readValue rest
    match rest with
    | (.sign ")", _) :: rest => return ({ p with value := some value }, rest)
    | rest => .error (unexpected rest)
  | rest => .ok (p, rest)

/-- Reads a pragma; what follows it is left. -/
def read : List Piece → Except Flaw (Pragma × List Piece)
  | [] => .error .incomplete
  | (first, text) :: rest =>
    match (if lower text = "window" ∧ isWindowOpening rest then none else first.name?), rest with
    | none, _ => .error (unexpected ((first, text) :: rest))
    | some _, (.sign ".", _) :: [] => .error .incomplete
    | some _, (.sign ".", _) :: (second, more) :: rest =>
      match second.name? with
      | none => .error (unexpected ((second, more) :: rest))
      | some name => readRest { schema := some text, name } rest
    | some name, rest => readRest { name } rest

/-- The name of the schema, without quotes and in lower case. -/
def schemaName? (p : Pragma) : Option String :=
  p.schema.bind fun text => (lexeme text.toList).1.name?.map lower

/-- Whether the schema is one of a connection. -/
def hasSchema (p : Pragma) : Bool :=
  match p.schemaName? with
  | none => p.schema.isNone
  | some name => ["main", "temp"].contains name

/-- Whether the pragma is about the database and not about temporary tables. -/
def concernsDatabase (p : Pragma) : Bool :=
  p.schemaName? != some "temp"

/-- A name with that of the schema before it, if one is given. -/
def qualified (p : Pragma) (name : String) : String :=
  match p.schemaName? with
  | none => name
  | some schema => schema ++ "." ++ name

/-- The pragmas that look at the database as soon as they are read. -/
def readers : List String :=
  ["auto_vacuum", "cache_size", "default_cache_size", "foreign_key_check", "foreign_key_list",
   "incremental_vacuum", "index_info", "index_list", "index_xinfo", "integrity_check",
   "journal_mode", "max_page_count", "optimize", "page_count", "quick_check",
   "synchronous", "table_info", "table_list", "table_xinfo", "wal_checkpoint"]

/-- The pragmas for the fields at the start of a database, of which some can be set. -/
def fields : List (String × Bool) :=
  [("application_id", true), ("data_version", false), ("freelist_count", false),
   ("schema_version", true), ("user_version", true)]

def encodings : List String :=
  ["utf8", "utf-8", "utf-16le", "utf-16be", "utf16le", "utf16be", "utf-16", "utf16"]

/-- Whether the pragma looks at the database as soon as it is read. -/
def reads (p : Pragma) : Bool :=
  let name := lower p.name
  readers.contains name || (name == "encoding" && p.value.isNone)

/-- Whether the pragma looks at the database when it is carried out. -/
def looksUp (p : Pragma) : Bool :=
  (fields.lookup (lower p.name)).isSome

/-- Whether the pragma writes to the database when it is carried out. -/
def writes (p : Pragma) : Bool :=
  match lower p.name, p.value with
  | "incremental_vacuum", _ => true
  | _, none => false
  | "default_cache_size", some _ => true
  | "auto_vacuum", some value =>
    ["full", "incremental"].contains (lower value) || [1, 2].contains (leadingNumber value)
  | name, some _ => (fields.lookup name).getD false

/-- Whether a value starts like a number. -/
def isNumber (value : String) : Bool :=
  match value.toList with
  | '-' :: c :: _ => isDigit c
  | c :: _ => isDigit c
  | [] => false

/-- The table that the pragma is about, if it has to exist. -/
def table? (p : Pragma) : Option String :=
  match lower p.name, p.value with
  | "foreign_key_check", some value => some value
  | "integrity_check", some value => if isNumber value then none else some value
  | "quick_check", some value => if isNumber value then none else some value
  | _, _ => none

end Pragma

/-- What becomes of the journal of a database, the file beside it through which every transaction is
written. -/
inductive JournalMode where
  | deleted
  | kept
  /-- Transactions need no such file. -/
  | absent
  deriving DecidableEq, Repr, Inhabited

end RegisterMachine
