import RegisterMachine.Record.Sql
import RegisterMachine.Text.Quoted

/-!
# Failures of connections

Why there is no connection to a database. What the database library reports has a code and a text; as
long as there is no connection to ask about the cause, the remark on every code is lack of memory.
-/

set_option autoImplicit false

namespace RegisterMachine

/-- Why the database library gives up. -/
inductive ResultCode where
  | error
  | permission
  | readOnly
  | inputOutput
  | full
  | cannotOpen
  | notDatabase
  deriving DecidableEq, Repr, Inhabited

namespace ResultCode

def number : ResultCode → Nat
  | .error => 1
  | .permission => 3
  | .readOnly => 8
  | .inputOutput => 10
  | .full => 13
  | .cannotOpen => 14
  | .notDatabase => 26

def text : ResultCode → String
  | .error => "SQL logic error"
  | .permission => "access permission denied"
  | .readOnly => "attempt to write a readonly database"
  | .inputOutput => "disk I/O error"
  | .full => "database or disk is full"
  | .cannotOpen => "unable to open database file"
  | .notDatabase => "file is not a database"

/-- The text and the number of a code, with a remark between them if there is one. -/
def message (code : ResultCode) (remark : String) : String :=
  let detail := if remark = "" then "" else ": " ++ remark
  code.text ++ detail ++ " (" ++ Decimal.ofNat code.number ++ ")"

end ResultCode

inductive ConnectError where
  /-- A semicolon stands between options. -/
  | separator
  /-- A percent sign starts no escape; these are the bytes from it on. -/
  | escape (bytes : List UInt8)
  /-- Different file layers are asked for. -/
  | conflictingLayers (names : List (List UInt8))
  /-- There is no database under the address. -/
  | unreachable (code : ResultCode)
  /-- A statement among the options is at fault. -/
  | statement (flaw : Sql.Flaw)
  /-- A statement among the options cannot be carried out. -/
  | refused (code : ResultCode)
  | unknownTimeFormat (name : List UInt8)
  | unknownLock (name : List UInt8)
  deriving DecidableEq, Repr, Inhabited

def ConnectError.message : ConnectError → String
  | .separator => "invalid semicolon separator in query"
  | .escape bytes => "invalid URL escape " ++ Quoted.bytes bytes
  | .conflictingLayers names =>
    "conflicting vfs query parameters: [" ++ " ".intercalate (names.map Utf8.readable) ++ "]"
  | .unreachable code => code.message "out of memory"
  | .statement flaw => ResultCode.error.message flaw.text
  | .refused code => code.message ""
  | .unknownTimeFormat name => "unknown _time_format " ++ Quoted.bytes name
  | .unknownLock name => "unknown _txlock " ++ Quoted.bytes name

end RegisterMachine
