import RegisterMachine.Record.Address
import RegisterMachine.Record.Pragma
import RegisterMachine.Text.CaseFold

/-!
# Connections

What the options of a connection settle. Each option with pragmas holds a text of statements, which
are read and carried out one after the other, and the first that fails is the end of the connection.
Statements that are not pragmas are only checked for how they begin.
-/

set_option autoImplicit false

namespace RegisterMachine

/-- What a connection finds at the other end. -/
structure Ground where
  /-- Whether the file holds something that is no database. -/
  isForeign : Bool := false
  /-- Whether there are tables for records. -/
  hasTables : Bool := false
  isWritable : Bool := true
  /-- Whether a journal can be written. -/
  admitsJournal : Bool := true
  /-- Whether transactions can be written to a log. -/
  admitsLog : Bool := false
  /-- Whether a path leads to something. -/
  leads : String → Bool := fun _ => false

structure Connection where
  isQueryOnly : Bool := false
  journal : JournalMode := .deleted
  /-- How many pages the database may have; zero if that does not matter. -/
  pageLimit : Nat := 0
  /-- Whether a transaction takes its lock at once. -/
  locksEarly : Bool := false
  /-- Whether a transaction is left open. -/
  isInTransaction : Bool := false
  deriving DecidableEq, Repr, Inhabited

namespace Connection

/-- How many pages the tables for records take, with the page that lists them and an index each. -/
def tablePages : Nat := 5

/-- Whether nothing may be written. -/
def isReadOnly (g : Ground) (c : Connection) : Bool :=
  !g.isWritable || c.isQueryOnly

/-- Whether a transaction can be written. -/
def checkWriting (g : Ground) (c : Connection) : Except ConnectError Unit :=
  if isReadOnly g c then .error (.refused .readOnly)
  else if c.journal ≠ .absent ∧ !g.admitsJournal then .error (.refused .cannotOpen)
  else .ok ()

def hasTable (g : Ground) (name : String) : Bool :=
  let own := ["sqlite_schema", "sqlite_master", "sqlite_temp_schema", "sqlite_temp_master"]
  (if g.hasTables then "runs" :: "steps" :: own else own).contains (Sql.lower name)

/-- What happens when a pragma has been read. -/
def consider (g : Ground) (c : Connection) (p : Pragma) : Except ConnectError Connection := do
  if !p.hasSchema then .error (.statement (.unknownSchema (p.schema.getD "")))
  if p.reads && g.isForeign then .error (.refused .notDatabase)
  match p.table? with
  | some name => if !hasTable g name then .error (.statement (.unknownTable (p.qualified name)))
  | none => pure ()
  match Sql.lower p.name, p.value with
  | "query_only", some value => return { c with isQueryOnly := Sql.isAffirmative value }
  | "encoding", some value =>
    if Pragma.encodings.contains (Sql.lower value) then return c
    else .error (.statement (.unknownEncoding value))
  | "temp_store_directory", some value =>
    if value = "" || g.leads value then return c else .error (.statement .inaccessibleDirectory)
  | _, _ => return c

/-- The journal mode that a name stands for. A log is kept only where there can be one. -/
def journalOf (g : Ground) (c : Connection) (name : String) : Except ConnectError JournalMode :=
  match Sql.lower name with
  | "delete" => .ok .deleted
  | "persist" => .ok .kept
  | "truncate" => .ok .kept
  | "memory" => .ok .absent
  | "off" => .ok .absent
  | "wal" =>
    if g.admitsLog then
      (checkWriting g { c with isQueryOnly := false }).map fun _ => .absent
    else .ok c.journal
  | _ => .ok c.journal

/-- What happens when a pragma is carried out. That nothing may be written is noticed before a look at
the database. -/
def carryOut (g : Ground) (c : Connection) (p : Pragma) : Except ConnectError Connection := do
  if !p.concernsDatabase then return c
  if p.looksUp && g.isForeign && !(p.writes && isReadOnly g c) then
    .error (.refused .notDatabase)
  if p.writes then checkWriting g c
  match Sql.lower p.name, p.value with
  | "journal_mode", some value => return { c with journal := ← journalOf g c value }
  | "max_page_count", some value =>
    let digits := value.toList
    if digits.all Sql.isDigit && Sql.leadingNumber value != 0 then
      return { c with pageLimit := Sql.leadingNumber value }
    else return c
  | _, _ => return c

/-- The words with which statements begin, and whether each can stand alone. -/
def openings : List (String × Bool) :=
  [("alter", false), ("analyze", true), ("attach", false), ("begin", true), ("commit", true),
   ("create", false), ("delete", false), ("detach", false), ("drop", false), ("end", true),
   ("explain", false), ("insert", false), ("reindex", true), ("release", false),
   ("replace", false), ("rollback", true), ("savepoint", false), ("select", false),
   ("update", false), ("vacuum", true), ("values", false), ("with", false)]

/-- Carries out a pragma whose keyword has been read. The result has what follows the statement. -/
def perform (g : Ground) (c : Connection) (rest : List Sql.Piece) :
    Except ConnectError (Connection × List Sql.Piece) := do
  let (p, rest) ← (Pragma.read rest).mapError ConnectError.statement
  let rest ← (Sql.endStatement rest).mapError ConnectError.statement
  let c ← c.consider g p
  return (← c.carryOut g p, rest)

/-- Passes over a statement that begins with a word. -/
def passOver (opening : String) (rest : List Sql.Piece) : Except ConnectError (List Sql.Piece) :=
  match openings.lookup (Sql.lower opening) with
  | none => .error (.statement (.misplaced opening))
  | some isWhole =>
    match rest with
    | [] => if isWhole then .ok [] else .error (.statement .incomplete)
    | (.sign ";", text) :: rest =>
      if isWhole then .ok rest else .error (.statement (.misplaced text))
    | rest => .ok ((rest.dropWhile fun piece => piece.1 != .sign ";").drop 1)

/-- Begins or ends a transaction, if a statement with this opening does so. -/
def turn (c : Connection) (opening : String) : Except ConnectError Connection :=
  let finish (ending : String) : Except ConnectError Connection :=
    if c.isInTransaction then .ok { c with isInTransaction := false }
    else .error (.statement (.noTransaction ending))
  match Sql.lower opening with
  | "begin" =>
    if c.isInTransaction then .error (.statement .nestedTransaction)
    else .ok { c with isInTransaction := true }
  | "commit" => finish "commit"
  | "end" => finish "commit"
  | "rollback" => finish "rollback"
  | _ => .ok c

/-- Carries out a text of statements; `fuel` exceeds the number of its lexemes. -/
def performAll (g : Ground) : (fuel : Nat) → Connection → List Sql.Piece →
    Except ConnectError Connection
  | 0, c, _ => .ok c
  | _, c, [] => .ok c
  | fuel + 1, c, (.sign ";", _) :: rest => performAll g fuel c rest
  | fuel + 1, c, (.word text, _) :: rest =>
    if Sql.lower text = "pragma" then do
      let (c, rest) ← c.perform g rest
      performAll g fuel c rest
    else do
      let rest ← passOver text rest
      performAll g fuel (← c.turn text) rest
  | _, _, pieces => .error (.statement (Sql.unexpected pieces))

/-- Carries out the statements of one option, of which the first is a pragma. -/
def obey (g : Ground) (c : Connection) (text : String) : Except ConnectError Connection :=
  let pieces := Sql.read ("pragma " ++ text)
  performAll g (pieces.length + 1) c pieces

/-- Texts of pragmas in the order in which they are obeyed: the busy timeout comes first, the others
follow without regard to case. -/
def arrange (texts : List String) : List String :=
  let key (s : String) : String := Sql.lower (String.ofList (s.toList.dropWhile Sql.isSpace))
  let isTimeout (s : String) : Bool := "busy_timeout".toList.isPrefixOf (key s).toList
  texts.mergeSort fun a b => isTimeout a || (!isTimeout b && key a ≤ key b)

/-- Obeys the pragmas, then checks how times are written and when locks are taken. -/
def ofOptions (g : Ground) (o : Options) : Except ConnectError Connection := do
  let texts := (o.values "_pragma").map fun value => Utf8.readable (value.takeWhile (· != 0))
  let c ← (arrange texts).foldlM (obey g) {}
  let timeFormat := (o.first? "_time_format").getD []
  if timeFormat ≠ [] ∧ timeFormat ≠ Utf8.encode "sqlite" then .error (.unknownTimeFormat timeFormat)
  let lock := (o.first? "_txlock").getD []
  match String.ofList ((Utf8.readable lock).toList.map CaseFold.lower) with
  | "" => return c
  | "deferred" => return c
  | "immediate" => return { c with locksEarly := true }
  | "exclusive" => return { c with locksEarly := true }
  | _ => .error (.unknownLock lock)

end Connection

end RegisterMachine
