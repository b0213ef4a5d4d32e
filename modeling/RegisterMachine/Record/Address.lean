import RegisterMachine.Record.ConnectError
import RegisterMachine.Text.Percent
import RegisterMachine.Text.Pieces

/-!
# Addresses of databases

The name under which a database is opened says more than where it is. Options may follow it behind a
question mark, and a name that starts with `file:` is itself read as an address with escapes and
options of its own. Both readings look at the same options: those of the connection hold statements
and say when a transaction takes its lock, those of the address say how the file is to be opened.
-/

set_option autoImplicit false

namespace RegisterMachine

/-- Names with their values, in order. -/
abbrev Options := List (List UInt8 × List UInt8)

namespace Options

/-- The options of a connection. An empty one counts for nothing. -/
def ofQuery (chars : List Char) : Except ConnectError Options :=
  if chars.contains ';' then .error .separator
  else
    ((pieces '&' chars).filter (· ≠ [])).mapM fun piece => do
      let (name, value) := cutAt '=' piece
      let name ← (Percent.decodeOption name).mapError ConnectError.escape
      let value ← (Percent.decodeOption value).mapError ConnectError.escape
      return (name, value)

/-- The options of an address. A zero byte ends the name or the value that it stands in, and an
option without a name counts for nothing. -/
def ofAddress (chars : List Char) : Options :=
  let component (chars : List Char) : List UInt8 := (Percent.decode chars).takeWhile (· != 0)
  let all := (pieces '&' chars).map fun piece =>
    let (name, value) := cutAt '=' piece
    (component name, component value)
  all.filter fun (name, _) => name ≠ []

def values (o : Options) (name : String) : List (List UInt8) :=
  (o.filter fun (n, _) => n == Utf8.encode name).map Prod.snd

def first? (o : Options) (name : String) : Option (List UInt8) :=
  (o.values name).head?

end Options

/-- How a database is opened. -/
inductive OpenMode where
  | readOnly
  /-- For writing, if it exists. -/
  | existing
  /-- For writing, and made if it does not exist. -/
  | create
  | memory
  deriving DecidableEq, Repr, Inhabited

namespace OpenMode

def ofName? : String → Option OpenMode
  | "ro" => some .readOnly
  | "rw" => some .existing
  | "rwc" => some .create
  | "memory" => some .memory
  | _ => none

/-- How much a mode asks for. -/
def demand : OpenMode → Nat
  | .readOnly => 1
  | .existing => 2
  | .create => 6
  | .memory => 0

/-- How much a later mode may ask for. -/
def allowance : OpenMode → Nat
  | .memory => 128
  | mode => mode.demand

end OpenMode

structure Address where
  /-- The path of the file; empty for a database that is gone when it is closed. -/
  path : String
  mode : OpenMode := .create
  /-- Whether other connections under the same address see the same database in memory. -/
  isShared : Bool := false
  /-- Whether the file is taken not to change. -/
  isImmutable : Bool := false
  /-- Whether the file is used without locks. -/
  isUnlocked : Bool := false
  /-- The file whose permissions a new file takes over, which then has to exist. -/
  modelPath : Option String := none
  /-- The layer through which the file is opened, if it is named. -/
  layer : Option String := none
  /-- The options of the connection. -/
  options : Options := []
  deriving DecidableEq, Repr, Inhabited

namespace Address

/-- The layers that there are. The last keeps files in memory. -/
def layers : List String :=
  ["unix", "unix-none", "unix-dotfile", "unix-excl", "memdb"]

/-- The layer that the options of a connection name. -/
def layerOf (o : Options) : Except ConnectError (Option String) := do
  let names := o.values "vfs"
  let chosen ← names.foldlM (fun chosen name =>
    if chosen ≠ [] ∧ chosen ≠ name then .error (.conflictingLayers names) else .ok name) []
  return if chosen = [] then none else some (Utf8.readable (chosen.takeWhile (· != 0)))

/-- Takes over one option of an address. -/
def adopt (a : Address) (name value : List UInt8) : Except ConnectError Address :=
  let value := Utf8.readable value
  match Utf8.readable name with
  | "vfs" => .ok { a with layer := some value }
  | "cache" =>
    if value = "shared" then .ok { a with isShared := true }
    else if value = "private" then .ok { a with isShared := false }
    else .error (.unreachable .error)
  | "mode" =>
    match OpenMode.ofName? value with
    | none => .error (.unreachable .error)
    | some mode =>
      if mode.demand ≤ a.mode.allowance then .ok { a with mode }
      else .error (.unreachable .permission)
  | _ => .ok a

/-- Reads what follows `file:`. An authority has to be empty or the local host, and a number sign
ends the address. -/
def ofFileAddress (layer : Option String) (chars : List Char) : Except ConnectError Address := do
  let chars ←
    match chars with
    | '/' :: '/' :: rest =>
      let host := rest.takeWhile (· != '/')
      if host = [] ∨ host = "localhost".toList then .ok (rest.drop host.length)
      else .error (.unreachable .error)
    | chars => .ok chars
  let (front, query) := cutAt '?' (chars.takeWhile (· != '#'))
  let path := Utf8.readable ((Percent.decode front).takeWhile (· != 0))
  let options := Options.ofAddress query
  let start : Address := { path, layer }
  let a ← options.foldlM (fun (a : Address) (name, value) => a.adopt name value) start
  let isOn (name : String) : Bool :=
    ((options.first? name).map fun value => Sql.isAffirmative (Utf8.readable value)).getD false
  return { a with isImmutable := isOn "immutable", isUnlocked := isOn "nolock",
                  modelPath := (options.first? "modeof").map Utf8.readable }

def scheme : List Char :=
  "file:".toList

/-- The address that a name stands for. A question mark at its very start belongs to the path, and a
zero byte ends the name. -/
def ofName (name : String) : Except ConnectError Address := do
  let chars := name.toList
  let (front, query) := cutAt '?' chars
  let query := if front = [] then [] else query
  let path := if front = [] ∨ scheme.isPrefixOf chars then chars else front
  let options ← Options.ofQuery query
  let layer ← layerOf options
  let path := path.takeWhile (· != '\x00')
  let a ←
    if scheme.isPrefixOf path then ofFileAddress layer (path.drop scheme.length)
    else .ok { path := String.ofList path, layer }
  match a.layer with
  | some layer =>
    if layers.contains layer then return { a with options } else .error (.unreachable .error)
  | none => return { a with options }

/-- Whether the path stands for no file in any layer. -/
def isAnonymous (a : Address) : Bool :=
  a.path == "" || a.path == ":memory:" || a.mode == .memory

def isInMemory (a : Address) : Bool :=
  a.isAnonymous || a.layer == some "memdb"

/-- Whether the layer in memory keeps a file by its path, so that every connection finds it. -/
def isCommon (a : Address) : Bool :=
  match a.path.toList with
  | '/' :: _ :: _ => true
  | '\\' :: _ :: _ => true
  | _ => false

/-- The layer and the path under which a database in memory is shared. -/
def sharedName? (a : Address) : Option (String × String) :=
  if a.path = "" then none
  else if a.isAnonymous then if a.isShared then some ("", a.path) else none
  else if a.isShared || a.isCommon then some ("memdb", a.path)
  else none

/-- Whether transactions can be written to a log beside the database, for which locks are needed. -/
def admitsLog (a : Address) : Bool :=
  !a.isInMemory && !a.isImmutable && !a.isUnlocked &&
    a.layer != some "unix-none" && a.layer != some "unix-dotfile"

def isWritable (a : Address) : Bool :=
  a.mode != .readOnly && (a.isAnonymous || !a.isImmutable)

end Address

end RegisterMachine
