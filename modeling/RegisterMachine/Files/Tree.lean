import RegisterMachine.Files.Path
import RegisterMachine.Record.Basic

/-!
# File trees

A tree holds directories, files and the databases that archives live in, each at a place: the list
of names on the way from the root. One directory is the current one, from which relative paths are
read. Reading and writing follow a path part by part, so that every part but the last has to be a
directory that exists.
-/

set_option autoImplicit false

namespace RegisterMachine

/-- The names on the way from the root. -/
abbrev Place := List String

inductive FileNode where
  | directory
  | file (bytes : List UInt8)
  | database (archive : Archive)
  deriving DecidableEq, Repr, Inhabited

structure Tree where
  nodes : List (Place × FileNode) := []
  /-- The current directory. -/
  here : Place := []
  deriving DecidableEq, Repr, Inhabited

inductive FileProblem where
  | missing
  | notDirectory
  | isDirectory
  | occupied
  | nameTooLong
  | invalidName
  deriving DecidableEq, Repr, Inhabited

def FileProblem.text : FileProblem → String
  | .missing => "no such file or directory"
  | .notDirectory => "not a directory"
  | .isDirectory => "is a directory"
  | .occupied => "file exists"
  | .nameTooLong => "file name too long"
  | .invalidName => "invalid argument"

/-- A failed action on a path. -/
structure FileError where
  action : String
  path : String
  problem : FileProblem
  deriving DecidableEq, Repr, Inhabited

def FileError.message (e : FileError) : String :=
  e.action ++ " " ++ e.path ++ ": " ++ e.problem.text

namespace Tree

/-- The node at a place; the root is always a directory. -/
def node? (t : Tree) (place : Place) : Option FileNode :=
  if place = [] then some .directory else t.nodes.lookup place

/-- Puts a node at a place, instead of one that is there. -/
def put (t : Tree) (place : Place) (node : FileNode) : Tree :=
  if (t.nodes.lookup place).isSome then
    { t with nodes := t.nodes.map fun (p, n) => if p = place then (p, node) else (p, n) }
  else { t with nodes := t.nodes ++ [(place, node)] }

/-- Follows the parts of a path from a place. -/
def walk (t : Tree) : Place → List String → Except FileProblem Place
  | place, [] => .ok place
  | place, part :: rest =>
    match t.node? place with
    | none => .error .missing
    | some .directory =>
      if part = "" ∨ part = "." then t.walk place rest
      else if part = ".." then t.walk place.dropLast rest
      else if part.utf8ByteSize > 255 then .error .nameTooLong
      else t.walk (place ++ [part]) rest
    | some _ => .error .notDirectory

/-- The place that a path leads to. -/
def locate (t : Tree) (path : String) : Except FileProblem Place :=
  if path = "" then .error .missing
  else if path.toList.contains '\x00' then .error .invalidName
  else if path.utf8ByteSize ≥ 4096 then .error .nameTooLong
  else t.walk (if Path.isAbsolute path then [] else t.here) ((pathParts path.toList).map String.ofList)

/-- The node that a path leads to. -/
def find (t : Tree) (path : String) : Except FileProblem FileNode :=
  match t.locate path with
  | .error e => .error e
  | .ok place =>
    match t.node? place with
    | none => .error .missing
    | some node => .ok node

def has (t : Tree) (path : String) : Bool :=
  match t.find path with
  | .ok _ => true
  | .error _ => false

/-- The bytes of a file. Those of a database are not modelled. -/
def readFile (t : Tree) (path : String) : Except FileError (List UInt8) :=
  match t.find path with
  | .ok (.file bytes) => .ok bytes
  | .ok (.database _) => .ok []
  | .ok .directory => .error { action := "read", path, problem := .isDirectory }
  | .error problem => .error { action := "open", path, problem }

/-- The place of a file that is to be created or replaced. -/
def target (t : Tree) (path : String) : Except FileProblem Place :=
  match t.locate (String.ofList (path.toList.reverse.dropWhile (· == '/')).reverse) with
  | .error e => if path.toList.all (· == '/') && path != "" then .error .isDirectory else .error e
  | .ok place =>
    if path.toList.getLast? = some '/' ∨ t.node? place = some .directory then .error .isDirectory
    else .ok place

/-- The place that a path names if `..` cancels the part before it, whatever that is. The places that
are named on the way need not exist, but they must not be blocked by a file or be too long. -/
def settle (t : Tree) : Place → List String → Option Place
  | place, [] => some place
  | place, part :: rest =>
    if part = "" ∨ part = "." then t.settle place rest
    else if part = ".." then t.settle place.dropLast rest
    else
      let place := place ++ [part]
      match t.walk [] place with
      | .error .missing | .ok _ =>
        if (Path.ofParts place).utf8ByteSize < 512 then t.settle place rest else none
      | .error _ => none

/-- The place of a database that is to be opened. Its path has to leave room for the names of the
files beside it. -/
def databasePlace (t : Tree) (path : String) : Option Place :=
  let start := if Path.isAbsolute path then [] else t.here
  match t.settle start ((pathParts path.toList).map String.ofList) with
  | none => none
  | some place =>
    if place = [] ∨ 504 < (Path.ofParts place).utf8ByteSize then none else some place

def writeFile (t : Tree) (path : String) (bytes : List UInt8) : Except FileError Tree :=
  match t.target path with
  | .error problem => .error { action := "open", path, problem }
  | .ok place => .ok (t.put place (.file bytes))

/-- Makes one directory. -/
def makeDirectory (t : Tree) (path : String) : Except FileProblem Tree :=
  match t.locate (String.ofList (path.toList.reverse.dropWhile (· == '/')).reverse) with
  | .error e => .error e
  | .ok place => if (t.node? place).isSome then .error .occupied else .ok (t.put place .directory)

/-- The texts of the ancestors of a path, each without the slash before the next part, and of the
path itself; `before` is the start of the path, from last to first. The root is left out. -/
def stages : (before : List Char) → List Char → List (List Char)
  | before, [] => [before.reverse]
  | before, c :: rest =>
    match before with
    | '/' :: d :: ancestor =>
      if c ≠ '/' then (d :: ancestor).reverse :: stages (c :: before) rest
      else stages (c :: before) rest
    | _ => stages (c :: before) rest

def makeStages (t : Tree) : List (List Char) → Except FileError Tree
  | [] => .ok t
  | stage :: rest =>
    let path := String.ofList stage
    match t.find path with
    | .ok .directory => t.makeStages rest
    | .ok _ => .error { action := "mkdir", path, problem := .notDirectory }
    | .error _ =>
      match t.makeDirectory path with
      | .error problem => .error { action := "mkdir", path, problem }
      | .ok t => t.makeStages rest

/-- Makes a directory and those of its ancestors that do not exist. -/
def makeDirectories (t : Tree) (path : String) : Except FileError Tree :=
  t.makeStages (stages [] path.toList)

end Tree

end RegisterMachine
