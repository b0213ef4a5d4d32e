import RegisterMachine.Assembly.Printer
import RegisterMachine.CommandLine.Flags
import RegisterMachine.Assembly.Program
import RegisterMachine.Image.File

/-!
# The compile command

Assembles program files into images in an output directory, one after the other, and stops at the
first that fails. What was written before stays.
-/

set_option autoImplicit false

namespace RegisterMachine.CommandLine

def compileFlags : List Flag :=
  [{ name := "disasm", default := .switch false, help := "Print disassembly" },
   { name := "mem", default := .number 10000, help := "Arena size stored in the image" },
   { name := "o", default := .text "build", help := "Output directory" }]

def compileUsage : String :=
  "Usage of compile_svm:\n" ++ usage compileFlags

inductive CompileError where
  | file (e : FileError)
  | assembly (path : String) (e : Assembly.AssemblyError)
  | write (e : FileError)

def CompileError.message : CompileError → String
  | .file e => e.message
  | .assembly path e => e.message path
  | .write e => "write image: " ++ e.message

structure CompileReport where
  exit : Nat := 0
  stdout : String := ""
  stderr : String := ""
  tree : Tree
  deriving Inhabited

/-- The path of the image that is made from a program file. -/
def outputPath (outDir path : String) : String :=
  Path.join outDir (Path.stem path ++ Image.extension)

/-- The program in a source file. -/
def readSource (t : Tree) (path : String) : Except CompileError (List Instruction) :=
  match t.readFile path with
  | .error e => .error (.file e)
  | .ok bytes =>
    match Assembly.assemble (Utf8.readable bytes) with
    | .error e => .error (.assembly path e)
    | .ok code => .ok code

/-- The heading and listing of a program. -/
def showProgram (path : String) (code : List Instruction) : String :=
  "=== " ++ Path.stem path ++ ": " ++ Decimal.ofNat code.length ++ " instructions ===\n"
    ++ Assembly.disassemble code

/-- Compiles the files in order. -/
def compileFiles (outDir : String) (memSize : Int64) (shows : Bool) :
    List String → CompileReport → CompileReport
  | [], r => r
  | path :: rest, r =>
    let failed (r : CompileReport) (e : CompileError) : CompileReport :=
      { r with
        exit := 1
        stderr := r.stderr ++ "Error compiling " ++ path ++ ": " ++ e.message ++ "\n" }
    match readSource r.tree path with
    | .error e => failed r e
    | .ok code =>
      let r := if shows then { r with stdout := r.stdout ++ showProgram path code } else r
      let out := outputPath outDir path
      match (Image.ofProgram memSize code).store r.tree out with
      | .error e => failed r (.write e)
      | .ok tree =>
        compileFiles outDir memSize shows rest
          { r with tree, stdout := r.stdout ++ path ++ " -> " ++ out ++ "\n" }

/-- The compile command. -/
def compile (t : Tree) (arguments : List String) : CompileReport :=
  match Arguments.ofList compileFlags arguments with
  | .error e =>
    { exit := if e = .helpRequested then 0 else 2, stderr := e.notice ++ compileUsage, tree := t }
  | .ok a =>
    if a.rest = [] then
      { exit := 1, tree := t,
        stderr := "Usage: compile_svm [-o outdir] [-mem N] [-disasm] <file.svm>...\n" }
    else
      let outDir := (a.text? "o").getD "build"
      match t.makeDirectories outDir with
      | .error e => { exit := 1, stderr := "Error: " ++ e.message ++ "\n", tree := t }
      | .ok tree =>
        compileFiles outDir ((a.number? "mem").getD 10000) (a.isOn "disasm") a.rest { tree }

end RegisterMachine.CommandLine
