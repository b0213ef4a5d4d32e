import RegisterMachine.Settings.Basic
import RegisterMachine.Text.CaseFold
import RegisterMachine.Toml.Document
import RegisterMachine.Toml.Reader

/-!
# Settings files

Settings are read from a file in a given directory, or from the nearest directory on the way to the
root that has one. Keys of the file are matched without regard to case, and keys that name no setting
are ignored. What the file does not set keeps its default.
-/

set_option autoImplicit false

namespace RegisterMachine.Settings

def fileName : String :=
  "svm.toml"

def text? : Toml.Node → Option String
  | .leaf (.text s) => some s
  | _ => none

def integer? : Toml.Node → Option Int64
  | .leaf (.integer n) => some n
  | _ => none

/-- Takes over a key of the file; a value of the wrong type is refused. -/
def set (s : Settings) (key : String) (node : Toml.Node) : Option Settings :=
  if CaseFold.matchesKeyword key "mem-size" then
    (integer? node).map fun memSize => { s with memSize }
  else if CaseFold.matchesKeyword key "trace" then
    (text? node).map fun trace => { s with trace }
  else if CaseFold.matchesKeyword key "log-level" then
    (text? node).map fun logLevel => { s with logLevel }
  else if CaseFold.matchesKeyword key "trace-db" then
    (text? node).map fun traceDb => { s with traceDb }
  else some s

/-- The settings in the text of a file. -/
def ofBytes (bytes : List UInt8) : Option Settings := do
  let document ← Toml.Document.ofStatements (← Toml.read bytes)
  document.root.foldlM (fun s (key, node) => s.set key node) {}

/-- Remembers the directory of the file, from which a relative database path is read. -/
def locate (s : Settings) (dir : String) : Settings :=
  { s with
    dir
    traceDb :=
      if s.traceDb = "" ∨ Path.isAbsolute s.traceDb then s.traceDb else Path.join dir s.traceDb }

/-- The settings file of a directory. -/
def load (t : Tree) (dir : String) : Except SettingsError Settings :=
  let path := Path.join dir fileName
  match t.readFile path with
  | .error e => .error (.unreadable path e)
  | .ok bytes =>
    match ofBytes bytes with
    | none => .error (.malformed path)
    | some s => .ok (s.locate (Path.resolve (Path.ofParts t.here) dir).text)

/-- The nearest directory with a settings file among one and its ancestors. The parts of the first
are given from last to first. -/
def nearest? (t : Tree) : List String → Option String
  | [] =>
    let dir := Path.ofParts []
    if t.has (Path.join dir fileName) then some dir else none
  | part :: parents =>
    let dir := Path.ofParts (part :: parents).reverse
    if t.has (Path.join dir fileName) then some dir else nearest? t parents

/-- The nearest settings file from a directory upward, the defaults if there is none. -/
def find (t : Tree) (start : String) : Except SettingsError Settings :=
  match nearest? t (Path.resolve (Path.ofParts t.here) start).parts.reverse with
  | none => .ok {}
  | some dir => load t dir

end RegisterMachine.Settings
