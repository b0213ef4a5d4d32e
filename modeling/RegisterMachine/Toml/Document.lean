import RegisterMachine.Toml.Value

/-!
# TOML documents

The tables that the statements of a text build up. A key is defined once, except that a table which
only came about on the way to another may still be defined for itself: an array takes its place, and
anything else leaves it as it is.

An inline table is built up twice, in the document and as a value of its own. Within the value a
dotted key may extend a table of an earlier entry, but never lead through anything else.
-/

set_option autoImplicit false

namespace RegisterMachine.Toml

inductive Node where
  /-- Any value but an inline table. -/
  | leaf (value : Value)
  | table (entries : List (String × Node))
  /-- An array of tables, of which the last is the one that headers extend. -/
  | tables (rows : List (List (String × Node)))
  deriving Repr, Inhabited

abbrev Table := List (String × Node)

namespace Table

/-- Defines a name, in place of what it stood for. -/
def put (t : Table) (name : String) (node : Node) : Table :=
  if (t.lookup name).isSome then t.map fun (k, n) => if k = name then (k, node) else (k, n)
  else t ++ [(name, node)]

/-- Changes the table at a path, if every name on the way stands for a table. -/
def modify? (f : Table → Option Table) : Key → Table → Option Table
  | [], t => f t
  | name :: rest, t =>
    match t.lookup name with
    | some (.table inner) => (modify? f rest inner).map fun inner => put t name (.table inner)
    | some (.tables rows) =>
      match rows.getLast? with
      | some row =>
        (modify? f rest row).map fun row => put t name (.tables (rows.dropLast ++ [row]))
      | none => none
    | _ => none

/-- Defines a name in the table at a path and makes the tables on the way, if no name on it stands
for anything but a table. -/
def insert? (name : String) (node : Node) : Key → Table → Option Table
  | [], t => some (put t name node)
  | part :: rest, t =>
    match t.lookup part with
    | none => (insert? name node rest []).map fun inner => put t part (.table inner)
    | some (.table inner) =>
      (insert? name node rest inner).map fun inner => put t part (.table inner)
    | some _ => none

/-- The table at a path. -/
def find? : Key → Table → Option Table
  | [], t => some t
  | name :: rest, t =>
    match t.lookup name with
    | some (.table inner) => find? rest inner
    | some (.tables rows) =>
      match rows.getLast? with
      | some row => find? rest row
      | none => none
    | _ => none

end Table

/-- A document under construction. -/
structure Document where
  root : Table := []
  /-- The tables that came about on the way to others. -/
  implicit : List Key := []
  /-- The keys whose definition is an array. -/
  arrays : List Key := []
  deriving Inhabited

namespace Document

def markImplicit (d : Document) (key : Key) : Document :=
  { d with implicit := key :: d.implicit }

def unmarkImplicit (d : Document) (key : Key) : Document :=
  { d with implicit := d.implicit.filter (· != key) }

/-- Notes whether the definition of a key is an array. A key with an empty name is noted under the
table that holds it, and in the root under its own name. -/
def noteArray (d : Document) (context : Key) (name : String) (isArray : Bool) : Document :=
  let key := if name ≠ "" then context ++ [name] else if context = [] then [""] else context
  if isArray then { d with arrays := key :: d.arrays }
  else { d with arrays := d.arrays.filter (· != key) }

/-- Defines a name in the table at `context`. -/
def define (d : Document) (context : Key) (name : String) (node : Node) : Option Document :=
  let key := context ++ [name]
  match Table.find? context d.root with
  | none => none
  | some t =>
    let set (d : Document) : Option Document :=
      (Table.modify? (fun t => some (Table.put t name node)) context d.root).map fun root =>
        { d with root }
    if (t.lookup name).isNone then set d
    else if !d.implicit.contains key then none
    else if d.arrays.contains key then set (d.unmarkImplicit key)
    else some (d.unmarkImplicit key)

/-- Makes the tables on the way from `done` along `rest`, where there are none. -/
def establish (d : Document) : (done rest : Key) → Option Document
  | _, [] => some d
  | done, name :: rest =>
    let key := done ++ [name]
    match Table.find? done d.root with
    | none => none
    | some t =>
      match t.lookup name with
      | none =>
        match Table.modify? (fun t => some (Table.put t name (.table []))) done d.root with
        | none => none
        | some root => { d.markImplicit key with root }.establish key rest
      | some (.leaf _) => none
      | some _ => d.establish key rest

/-- Opens the table at a key, or a further table of the array at a key. -/
def openTable (d : Document) (key : Key) (further : Bool) : Option Document :=
  let parent := key.dropLast
  let name := key.getLast?.getD ""
  match d.establish [] parent with
  | none => none
  | some d =>
    if further then
      let extend (t : Table) : Option Table :=
        match t.lookup name with
        | none => some (Table.put t name (.tables [[]]))
        | some (.tables rows) => some (Table.put t name (.tables (rows ++ [[]])))
        | some _ => none
      (Table.modify? extend parent d.root).map fun root => { d with root }
    else d.define parent name (.table [])

/-- Opens the tables that a dotted key leads through, from `context` on. -/
def openParents (d : Document) : (context rest : Key) → Option Document
  | _, [] => some d
  | context, name :: rest =>
    let key := context ++ [name]
    match (d.markImplicit key).openTable key false with
    | none => none
    | some d => d.openParents key rest

def isArray : Node → Bool
  | .leaf (.array _) => true
  | _ => false

/-- Defines `name` in the table at `context` as a value that has been followed. -/
def assign (d : Document) (context : Key) (name : String) (node : Node) : Option Document :=
  (d.define context name node).map fun d => d.noteArray context name (isArray node)

mutual

/-- Follows a value that is about to define `name` in the table at `context`: inline tables build
their entries up in the document, as tables of an array if they stand in one. The result also has
the value itself. -/
def enter (context : Key) (name : String) (inArray : Bool) :
    Value → Document → Option (Document × Node)
  | .array items, d =>
    (enterItems context name items (d.noteArray context name true)).map fun d =>
      (d, .leaf (.array items))
  | .table entries, d =>
    let key := context ++ [name]
    match (d.markImplicit key).openTable key inArray with
    | none => none
    | some d => (enterEntries key [] entries d).map fun (d, own) => (d, .table own)
  | v, d => some (d, .leaf v)

def enterItems (context : Key) (name : String) : List Value → Document → Option Document
  | [], d => some d
  | v :: rest, d =>
    match enter context name true v d with
    | none => none
    | some (d, _) => enterItems context name rest d

/-- Follows the entries of the inline table at `key`, whose value so far is `own`. -/
def enterEntries (key : Key) (own : Table) :
    List (Key × Value) → Document → Option (Document × Table)
  | [], d => some (d, own)
  | (dotted, v) :: rest, d =>
    let parents := dotted.dropLast
    let name := dotted.getLast?.getD ""
    match d.openParents key parents with
    | none => none
    | some d =>
      match enter (key ++ parents) name false v d with
      | none => none
      | some (d, node) =>
        match d.assign (key ++ parents) name node, own.insert? name node parents with
        | some d, some own => enterEntries key own rest d
        | _, _ => none

end

/-- Carries out a statement under the header `context`; the result has the header for the next. -/
def apply (context : Key) (d : Document) : Statement → Option (Key × Document)
  | .header key => (d.openTable key false).map fun d => (key, d.noteArray key "" false)
  | .arrayHeader key => (d.openTable key true).map fun d => (key, d.noteArray key "" false)
  | .assign dotted v => do
    let parent := context ++ dotted.dropLast
    let name := dotted.getLast?.getD ""
    let d ← d.openParents context dotted.dropLast
    let (d, node) ← enter parent name false v d
    let d ← d.assign parent name node
    return (context, d)

/-- The document that the statements build, if they agree with each other. -/
def ofStatements (statements : List Statement) : Option Document :=
  (statements.foldlM (fun (context, d) s => apply context d s) (([], {}) : Key × Document)).map
    Prod.snd

end Document

end RegisterMachine.Toml
