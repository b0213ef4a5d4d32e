import RegisterMachine.Text.Pieces

/-!
# Paths

Paths are texts whose parts are divided by slashes. Cleaning one removes empty parts and `.`, and
lets `..` cancel the part before it, without looking at any file.
-/

set_option autoImplicit false

namespace RegisterMachine

/-- The parts of a text between its slashes. -/
def pathParts (chars : List Char) : List (List Char) :=
  pieces '/' chars

/-- A clean path. The parts hold no empty part and no `.`, and `..` only at the start of a relative
path. -/
structure Path where
  absolute : Bool
  parts : List String
  deriving DecidableEq, Repr, Inhabited

namespace Path

/-- Adds a part to the parts before it, which are given from last to first. -/
def enter (absolute : Bool) (before : List String) (part : String) : List String :=
  if part = "" ∨ part = "." then before
  else if part = ".." then
    match before with
    | [] => if absolute then [] else [".."]
    | last :: rest => if last = ".." then ".." :: before else rest
  else part :: before

def isAbsolute (s : String) : Bool :=
  s.toList.head? == some '/'

def ofText (s : String) : Path :=
  let absolute := isAbsolute s
  let parts := (pathParts s.toList).map String.ofList
  { absolute, parts := (parts.foldl (enter absolute) []).reverse }

def text (p : Path) : String :=
  if p.absolute then "/" ++ "/".intercalate p.parts
  else if p.parts.isEmpty then "."
  else "/".intercalate p.parts

def clean (s : String) : String :=
  (ofText s).text

/-- Two paths one after the other, clean. An empty one counts for nothing. -/
def join (a b : String) : String :=
  if a = "" ∧ b = "" then ""
  else if a = "" then clean b
  else if b = "" then clean a
  else clean (a ++ "/" ++ b)

/-- The absolute form of a path that is read from the directory `here`. -/
def resolve (here s : String) : Path :=
  if isAbsolute s then ofText s else ofText (join here s)

/-- The absolute path with these parts. -/
def ofParts (parts : List String) : String :=
  text { absolute := true, parts }

/-- The last part of a path. -/
def base (s : String) : String :=
  if s = "" then "."
  else
    let chars := (s.toList.reverse.dropWhile (· == '/')).takeWhile (· != '/')
    if chars.isEmpty then "/" else String.ofList chars.reverse

/-- From the last dot in the last part of a path to its end; empty if there is no dot. -/
def extension (s : String) : String :=
  let last := s.toList.reverse.takeWhile (· != '/')
  if last.contains '.' then String.ofList ('.' :: (last.takeWhile (· != '.')).reverse) else ""

/-- The last part of a path without its extension. -/
def stem (s : String) : String :=
  let base := (base s).toList
  let ending := (extension s).toList
  if ending.isSuffixOf base then String.ofList (base.take (base.length - ending.length))
  else String.ofList base

end Path

end RegisterMachine
