import RegisterMachine.Assembly.Program
import RegisterMachine.Image.File

/-!
# Program files

A program file holds an image or assembly text, whichever its first bytes look like.
-/

set_option autoImplicit false

namespace RegisterMachine.CommandLine

inductive ProgramError where
  | file (e : FileError)
  | image (path : String) (e : ImageError)
  | assembly (path : String) (e : Assembly.AssemblyError)

def ProgramError.message : ProgramError → String
  | .file e => e.message
  | .image path e => path ++ ": " ++ e.message
  | .assembly path (.unread e) => e.message path
  | .assembly path (.unresolved e) => path ++ ": " ++ e.message

structure Program where
  /-- The arena size that an image asks for; zero if there is none. -/
  memSize : Int64 := 0
  code : List Instruction
  deriving DecidableEq, Repr, Inhabited

namespace Program

def ofBytes (path : String) (bytes : List UInt8) : Except ProgramError Program :=
  if Image.isLikely bytes then
    match Image.read bytes with
    | .error e => .error (.image path e)
    | .ok image => .ok { memSize := image.memSize, code := image.instructions }
  else
    match Assembly.assemble (Utf8.readable bytes) with
    | .error e => .error (.assembly path e)
    | .ok code => .ok { code }

def load (t : Tree) (path : String) : Except ProgramError Program :=
  match t.readFile path with
  | .error e => .error (.file e)
  | .ok bytes => ofBytes path bytes

end Program

end RegisterMachine.CommandLine
