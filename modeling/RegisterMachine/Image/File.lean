import RegisterMachine.Files.Tree
import RegisterMachine.Image.Reader
import RegisterMachine.Image.Writer

/-!
# Image files

Images are stored as files of their own, and an unreadable one is reported with its path.
-/

set_option autoImplicit false

namespace RegisterMachine

inductive ImageFileError where
  | file (e : FileError)
  | image (path : String) (e : ImageError)

def ImageFileError.message : ImageFileError → String
  | .file e => e.message
  | .image path e => path ++ ": " ++ e.message

namespace Image

def store (t : Tree) (path : String) (image : Image) : Except FileError Tree :=
  t.writeFile path image.write

def fetch (t : Tree) (path : String) : Except ImageFileError Image :=
  match t.readFile path with
  | .error e => .error (.file e)
  | .ok bytes =>
    match Image.read bytes with
    | .error e => .error (.image path e)
    | .ok image => .ok image

end Image

end RegisterMachine
