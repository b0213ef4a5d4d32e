import RegisterMachine.Files.Tree
import RegisterMachine.Record.Connection
import RegisterMachine.Record.Recorder

/-!
# Stores

A store gives access to one archive, in a database file or in memory, until it is closed. Opening one
goes from the address of the database to its place, then through the options of the connection, and
last to the tables, which are made if there are none; what was made before a step that fails stays.

Stores and recorders on one file tree are kept together, since an open draft keeps every other
recorder on the same archive from inserting its run.
-/

set_option autoImplicit false

namespace RegisterMachine

inductive OpenError where
  /-- There is no connection to the database. -/
  | connection (e : ConnectError)
  /-- There are no tables for records in the database. -/
  | tables (code : ResultCode)
  deriving DecidableEq, Repr, Inhabited

def OpenError.message : OpenError → String
  | .connection e => "set busy timeout: " ++ e.message
  | .tables code => "create trace tables: " ++ code.message ""

inductive QueryError where
  | closed (query : String) (id : RunId)
  | notFound (id : RunId)
  deriving DecidableEq, Repr, Inhabited

def QueryError.message : QueryError → String
  | .closed query id => "load " ++ query ++ " " ++ id ++ ": " ++ Refusal.closed.text
  | .notFound id => "run not found: " ++ id

inductive Location where
  | file (place : Place)
  /-- The archive in memory with this number. -/
  | memory (number : Nat)
  deriving DecidableEq, Repr, Inhabited

structure Store where
  location : Location
  /-- The name under which others can open the same archive in memory. -/
  sharedName : Option (String × String) := none
  isWritable : Bool := true
  connection : Connection := {}
  isOpen : Bool := true
  deriving DecidableEq, Repr, Inhabited

/-- The stores opened on a tree, and the recorders with the stores they belong to. -/
structure Stores where
  tree : Tree := {}
  memory : Array Archive := #[]
  stores : Array Store := #[]
  recorders : Array (Nat × Recorder) := #[]
  deriving Inhabited

namespace Stores

def archive (s : Stores) : Location → Archive
  | .file place =>
    match s.tree.node? place with
    | some (.database a) => a
    | _ => {}
  | .memory n => s.memory.getD n {}

def setArchive (s : Stores) (location : Location) (a : Archive) : Stores :=
  match location with
  | .file place => { s with tree := s.tree.put place (.database a) }
  | .memory n => { s with memory := s.memory.setIfInBounds n a }

/-- The open store of an archive in memory that is shared under this name. -/
def sharing? (s : Stores) (name : Option (String × String)) : Option Store :=
  if name.isNone then none else s.stores.find? fun store => store.isOpen && store.sharedName == name

/-- Opens the file at a place. It is made empty if there is none and the address allows it. A
directory can be opened for reading, but nothing can be read from it. -/
def openFile (t : Tree) (a : Address) (place : Place) : Except ResultCode Tree :=
  if (a.modelPath.map t.has).getD true = false then .error .inputOutput
  else
    match t.walk [] place with
    | .error _ => .error .cannotOpen
    | .ok _ =>
      match t.node? place with
      | some .directory => .error (if a.mode = .readOnly then .inputOutput else .cannotOpen)
      | some _ => .ok t
      | none => if a.mode = .create then .ok (t.put place (.file [])) else .error .cannotOpen

/-- The location that an address leads to. -/
def reach (s : Stores) (a : Address) : Except ResultCode (Stores × Location) :=
  if a.isInMemory then
    match s.sharing? a.sharedName? with
    | some store => .ok (s, store.location)
    | none => .ok ({ s with memory := s.memory.push {} }, .memory s.memory.size)
  else
    match s.tree.databasePlace a.path with
    | none => .error .cannotOpen
    | some place =>
      (openFile s.tree a place).map fun tree => ({ s with tree }, .file place)

/-- The place of the journal of a database. -/
def journalPlace (place : Place) : Place :=
  place.dropLast ++ [place.getLast?.getD "" ++ "-journal"]

/-- Whether a journal can be written. -/
def admitsJournal (t : Tree) (place : Place) : Bool :=
  match t.walk [] (journalPlace place) with
  | .error _ => false
  | .ok place => t.node? place != some .directory

/-- What a connection finds at a location. An archive in memory has tables if it is shared with an
open store. -/
def ground (s : Stores) (a : Address) (location : Location) : Ground :=
  let common : Ground :=
    { isWritable := a.isWritable, admitsLog := a.admitsLog,
      leads := fun path => a.layer != some "memdb" && s.tree.has path }
  match location with
  | .memory _ => { common with hasTables := (s.sharing? a.sharedName?).isSome }
  | .file place =>
    let isForeign :=
      match s.tree.node? place with
      | some (.file bytes) => !bytes.isEmpty
      | _ => false
    let hasTables :=
      match s.tree.node? place with
      | some (.database _) => true
      | _ => false
    { common with isForeign, hasTables, admitsJournal := admitsJournal s.tree place }

/-- Why there cannot be tables for records. -/
def obstacle? (g : Ground) (c : Connection) : Option ResultCode :=
  if g.isForeign then some .notDatabase
  else if g.hasTables then none
  else if Connection.isReadOnly g c then some .readOnly
  else if c.journal ≠ .absent ∧ !g.admitsJournal then some .cannotOpen
  else if 0 < c.pageLimit ∧ c.pageLimit < Connection.tablePages then some .full
  else none

/-- Leaves the journal of a transaction behind if it is kept. -/
def leaveJournal (s : Stores) (location : Location) (journal : JournalMode) : Stores :=
  match location, journal with
  | .file place, .kept => { s with tree := s.tree.put (journalPlace place) (.file []) }
  | _, _ => s

/-- Makes tables at a location. -/
def furnish (s : Stores) (location : Location) (journal : JournalMode) : Stores :=
  match location with
  | .memory _ => s
  | .file place =>
    { s with tree := s.tree.put place (.database {}) }.leaveJournal location journal

/-- Opens a store and gives its number. -/
def openStore (s : Stores) (name : String) : Stores × Except OpenError Nat :=
  match Address.ofName name with
  | .error e => (s, .error (.connection e))
  | .ok a =>
    match s.reach a with
    | .error code => (s, .error (.connection (.unreachable code)))
    | .ok (s, location) =>
      let g := s.ground a location
      match Connection.ofOptions g a.options with
      | .error e => (s, .error (.connection e))
      | .ok connection =>
        match obstacle? g connection with
        | some .full => (s.leaveJournal location connection.journal, .error (.tables .full))
        | some code => (s, .error (.tables code))
        | none =>
          let s := if g.hasTables then s else s.furnish location connection.journal
          let store : Store :=
            { location, sharedName := a.sharedName?, isWritable := a.isWritable, connection }
          ({ s with stores := s.stores.push store }, .ok s.stores.size)

/-- Closes a store; a draft that is open stays open. -/
def closeStore (s : Stores) (number : Nat) : Stores :=
  { s with stores := s.stores.modify number fun store => { store with isOpen := false } }

def addRecorder (s : Stores) (store : Nat) : Stores × Nat :=
  ({ s with recorders := s.recorders.push (store, {}) }, s.recorders.size)

def location (s : Stores) (store : Nat) : Location :=
  ((s.stores[store]?).map Store.location).getD (.memory 0)

def isOpen (s : Stores) (store : Nat) : Bool :=
  ((s.stores[store]?).map Store.isOpen).getD false

def isWritable (s : Stores) (store : Nat) : Bool :=
  ((s.stores[store]?).map Store.isWritable).getD false

def connection (s : Stores) (store : Nat) : Connection :=
  ((s.stores[store]?).map Store.connection).getD {}

/-- Whether a recorder other than this one has an open draft on the location. -/
def isLocked (s : Stores) (recorder : Nat) (location : Location) : Bool :=
  (List.range s.recorders.size).any fun n =>
    n != recorder &&
      match s.recorders[n]? with
      | some (store, r) => r.draft.isSome && s.location store == location
      | none => false

/-- What fails in a store: to open a draft once it is closed or within a transaction, to insert a run
into an archive that may only be read, and to insert one while another draft is open. If drafts take
their lock at once, those that cannot have it are not opened. -/
def policy (isOpen isWritable isLocked : Bool) (c : Connection) : Policy
  | .openDraft _ =>
    if !isOpen then some .closed
    else if c.isInTransaction then some .nested
    else if !c.locksEarly then none
    else if c.isQueryOnly then some .readOnly
    else if isWritable && isLocked then some .locked
    else none
  | .insertRun _ =>
    if !isWritable || c.isQueryOnly then some .readOnly
    else if isLocked then some .locked
    else none
  | _ => none

/-- What fails for a recorder of a store. -/
def rules (s : Stores) (recorder store : Nat) : Policy :=
  policy (s.isOpen store) (s.isWritable store) (s.isLocked recorder (s.location store))
    (s.connection store)

/-- Applies an action of a recorder to it and to its archive. -/
def act (s : Stores) (recorder : Nat) (action : Policy → Archive → Recorder → Archive × Recorder) :
    Stores :=
  match s.recorders[recorder]? with
  | none => s
  | some (store, r) =>
    let location := s.location store
    let rules := s.rules recorder store
    let s := { s with recorders := s.recorders.setIfInBounds recorder (store, {}) }
    let (archive, r) := action rules (s.archive location) r
    let s := { s with recorders := s.recorders.setIfInBounds recorder (store, r) }
    s.setArchive location archive

/-- Lets a recorder follow the events of the run `id`. -/
def follow (s : Stores) (recorder : Nat) (id : RunId) (events : List Event) : Stores :=
  s.act recorder fun policy a r => events.foldl (Recorder.observe policy id) (a, r)

def recordError? (s : Stores) (recorder : Nat) : Option RecordError :=
  (s.recorders[recorder]?).bind fun (_, r) => r.error

def loadRecord (s : Stores) (store : Nat) (id : RunId) : Except QueryError RunRow :=
  if s.isOpen store then
    match (s.archive (s.location store)).find? id with
    | some row => .ok row
    | none => .error (.notFound id)
  else .error (.closed "run" id)

def loadRows (s : Stores) (store : Nat) (id : RunId) : Except QueryError (List StepRow) :=
  if s.isOpen store then .ok ((s.archive (s.location store)).rows id)
  else .error (.closed "steps" id)

end Stores

end RegisterMachine
