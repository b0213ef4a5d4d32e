import RegisterMachine.CommandLine.Compile
import RegisterMachine.CommandLine.Run
import RegisterMachine.Record.Printer

/-!
# The program

Reads from disk what a command can look at, lets the command work on that tree, and puts on disk
what it has changed. The program compiles if it is called by the name of the compiler, and runs
otherwise.
-/

set_option autoImplicit false

namespace RegisterMachine.CommandLine

/-- Reads what is on disk along the parts of a path, from a directory on. -/
def survey (t : Tree) (place : Place) : List String → IO Tree
  | [] => return t
  | part :: rest => do
    let place := place ++ [part]
    let path := Path.ofParts place
    try
      if ← (← IO.FS.realPath path).isDir then
        survey (t.put place .directory) place rest
      else
        let bytes := (← IO.FS.readBinFile path).toList
        let isDatabase := (Utf8.encode Archive.signature).isPrefixOf bytes
        return t.put place (if isDatabase then .database {} else .file bytes)
    catch _ => return t

/-- Adds what is on disk at a path to a tree. -/
def surveyPath (t : Tree) (path : String) : IO Tree :=
  survey t [] (Path.resolve (Path.ofParts t.here) path).parts

/-- The tree with the current directory and the settings files on the way up from it. -/
def surroundings : IO Tree := do
  let here := (Path.ofText (← IO.currentDir).toString).parts
  let t : Tree := { here }
  let dirs := (List.range (here.length + 1)).map fun n => Path.ofParts (here.take n)
  dirs.foldlM (fun t dir => surveyPath t (Path.join dir Settings.fileName)) t

/-- Puts on disk what a tree has and another had not. Records are added to the end of their file. -/
def putBack (old new : Tree) : IO Unit := do
  for (place, node) in new.nodes do
    let path := Path.ofParts place
    if old.node? place ≠ some node then
      match node with
      | .directory => IO.FS.createDirAll path
      | .file bytes => IO.FS.writeBinFile path ⟨bytes.toArray⟩
      | .database archive =>
        let start :=
          match old.node? place with
          | some (.database _) => ""
          | _ => Archive.signature
        let handle ← IO.FS.Handle.mk path .append
        handle.putStr (start ++ archive.text)

def environment : IO Environment := do
  let names := ["SVM_MEM_SIZE", "SVM_TRACE", "SVM_LOG_LEVEL", "SVM_TRACE_DB"]
  names.filterMapM fun name => do return (← IO.getEnv name).map fun value => (name, value)

/-- More steps than any run takes. -/
def enoughFuel : Nat :=
  0x4000000000000000

/-- The database that a command line would record its run in, as far as the tree is known. -/
def databasePath? (t : Tree) (env : Environment) (arguments : List String) : Option String := do
  let job ← (Job.prepare t env arguments).toOption
  let address ← (Address.ofName job.traceDb).toOption
  return address.path

/-- The run command on disk. -/
def runMain (arguments : List String) : IO UInt32 := do
  let t ← surroundings
  let env ← environment
  let named :=
    match Arguments.ofList runFlags arguments with
    | .ok a => Path.join ((a.text? "config").getD "") Settings.fileName :: a.rest
    | .error _ => []
  let t ← named.foldlM surveyPath t
  let t ← (databasePath? t env arguments).toList.foldlM surveyPath t
  let id := RunId.ofNat (← IO.rand 0 0xffffffffffffffffffffffffffffffff)
  let r := run enoughFuel id t env arguments
  putBack t r.tree
  IO.print r.stdout
  IO.eprint r.stderr
  r.journal.forM IO.eprintln
  let (code, words) := RunError.farewell r.error
  IO.eprint words
  return UInt32.ofNat code

/-- The compile command on disk. -/
def compileMain (arguments : List String) : IO UInt32 := do
  let t ← surroundings
  let named :=
    match Arguments.ofList compileFlags arguments with
    | .ok a =>
      let outDir := (a.text? "o").getD "build"
      outDir :: a.rest ++ a.rest.map (outputPath outDir)
    | .error _ => []
  let t ← named.foldlM surveyPath t
  let r := compile t arguments
  putBack t r.tree
  IO.print r.stdout
  IO.eprint r.stderr
  return UInt32.ofNat r.exit

end RegisterMachine.CommandLine

def main (arguments : List String) : IO UInt32 := do
  if (← IO.appPath).fileName == some "compile_svm" then
    RegisterMachine.CommandLine.compileMain arguments
  else
    RegisterMachine.CommandLine.runMain arguments
