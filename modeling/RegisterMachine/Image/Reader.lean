import RegisterMachine.Cbor.Reader
import RegisterMachine.Image.Basic
import RegisterMachine.Text.Utf8

/-!
# Reading images

An item is matched against the fields of an image. Keys are numbers or their decimal texts; of
two entries for one field the first counts, and unknown keys are skipped. Null leaves a field
empty. Tags are looked through, but the tags for times and big numbers must stand before content
that fits them.
-/

set_option autoImplicit false

namespace RegisterMachine

open Cbor (Item Kind Malformed)

/-- What an item is asked to become. -/
inductive Target where
  | text
  | integer
  | texts
  | instruction
  | instructions
  | image
  /-- A key below every 64-bit integer. -/
  | integerKey
  deriving DecidableEq, Repr, Inhabited

namespace Target

def name : Target → String
  | .text => "string"
  | .integer => "int"
  | .texts => "[]string"
  | .instruction => "image.Instr"
  | .instructions => "[]image.Instr"
  | .image => "image.Image"
  | .integerKey => "int64"

def isRecord : Target → Bool
  | .instruction => true
  | .image => true
  | _ => false

def isList : Target → Bool
  | .texts => true
  | .instructions => true
  | _ => false

end Target

/-- Why an item does not fit, if its kind alone does not say it. -/
inductive Misfit where
  | wrongKind
  | overflow (n : Int) (target : Target)
  | overflow64 (n : Int)
  | keyOverflow (argument : Nat)
  | keyKind (kind : Kind)
  | arrayForRecord
  deriving DecidableEq, Repr, Inhabited

def Misfit.message : Misfit → String
  | .wrongKind => ""
  | .overflow n target => " (" ++ Decimal.ofInt n ++ " overflows " ++ target.name ++ ")"
  | .overflow64 n => " (" ++ Decimal.ofInt n ++ " overflows Go's int64)"
  | .keyOverflow argument =>
    " (-1-" ++ Decimal.ofNat argument ++ " overflows Go's int64)"
  | .keyKind kind =>
    " (map key is of type " ++ kind.name ++ " and cannot be used to match struct field name)"
  | .arrayForRecord => " (cannot decode CBOR array to struct without toarray option)"

/-- The requirement that a tag makes on its content. -/
inductive TagRule where
  | text
  | number
  | bytes
  deriving DecidableEq, Repr, Inhabited

def TagRule.message : TagRule → String
  | .text => "tag number 0 must be followed by text string"
  | .number => "tag number 1 must be followed by integer or floating-point number"
  | .bytes => "tag number 2 or 3 must be followed by byte string"

inductive ItemError where
  /-- An item of kind `found` where `target` is wanted, inside the image field `field`. -/
  | mismatch (found : Kind) (field : Option Nat) (target : Target) (why : Misfit)
  | invalidText
  | tagContent (rule : TagRule) (found : Kind)
  deriving DecidableEq, Repr, Inhabited

namespace ItemError

def message : ItemError → String
  | .mismatch found none target why =>
    "cbor: cannot unmarshal " ++ found.name ++ " into Go value of type " ++ target.name
      ++ why.message
  | .mismatch found (some field) target why =>
    "cbor: cannot unmarshal " ++ found.name ++ " into Go struct field image.Image."
      ++ Decimal.ofNat field ++ " of type " ++ target.name ++ why.message
  | .invalidText => "cbor: invalid UTF-8 string"
  | .tagContent rule found => "cbor: " ++ rule.message ++ ", got " ++ found.name

/-- A mismatch is reported at the field of the image in which it occurs. -/
def inField (field : Nat) : ItemError → ItemError
  | .mismatch found _ target why => .mismatch found (some field) target why
  | e => e

end ItemError

/-! ### Tags -/

/-- The tag that only announces the format. -/
def selfDescription : Nat := 55799

/-- A tag's demand on the item behind it. -/
def checkTag (number : Nat) (content : Item) : Except ItemError Unit :=
  let kind := content.kind
  match number with
  | 0 => if kind = .text then .ok () else .error (.tagContent .text kind)
  | 1 =>
    match content with
    | .unsigned _ | .negative _ | .float _ => .ok ()
    | _ => .error (.tagContent .number kind)
  | 2 | 3 => if kind = .bytes then .ok () else .error (.tagContent .bytes kind)
  | _ => .ok ()

/-- The demands of a whole run of tags, from the outermost inwards. -/
def checkTags : Item → Except ItemError Unit
  | .tag number content => do
    checkTag number content
    checkTags content
  | _ => .ok ()

/-- The item behind its tags; a big number keeps the tag that makes it one. -/
def withoutTags : Item → Except ItemError Item
  | .tag number content => do
    if number = selfDescription then withoutTags content
    else
      checkTags (.tag number content)
      if number = 2 ∨ number = 3 then return .tag number content
      else withoutTags content
  | item => .ok item

/-! ### Values -/

/-- What an item offers, its tags removed. -/
inductive Offer where
  | nothing
  | integer (n : Int64)
  | text (s : String)
  | list (items : List Item)
  | record (entries : List (Item × Item))

/-- A non-negative number; only an integer target minds its size. -/
def offerNat (kind : Kind) (target : Target) (n : Nat) : Except ItemError Offer :=
  if target = .integer ∧ n ≥ 0x8000000000000000 then
    .error (.mismatch kind none target (.overflow n target))
  else .ok (.integer (Int64.ofNat n))

/-- A big number, as a tag 2 or 3 before a byte string. -/
def offerBig (target : Target) (n : Int) : Except ItemError Offer :=
  if target.isList then .error (.mismatch .tag none target .wrongKind)
  else if 0 ≤ n ∧ n < 0x10000000000000000 then offerNat .tag target n.toNat
  else if -0x8000000000000000 ≤ n ∧ n < 0 then .ok (.integer (Int64.ofInt n))
  else .error (.mismatch .tag none target (.overflow n target))

/-- The text of chunks each of which is valid. -/
def textOfChunks (chunks : List (List UInt8)) : Except ItemError String :=
  chunks.foldlM (fun text chunk =>
    match Utf8.decode? chunk with
    | some s => .ok (text ++ s)
    | none => .error .invalidText) ""

/-- What the item offers to `target`. -/
def offer (target : Target) : Item → Except ItemError Offer
  | .unsigned n => offerNat .unsigned target n
  | .negative n =>
    if n ≥ 0x8000000000000000 then
      .error (.mismatch .negative none target (.overflow64 (-1 - n)))
    else .ok (.integer (Int64.ofInt (-1 - n)))
  | .bytes _ => .error (.mismatch .bytes none target .wrongKind)
  | .text chunks => do
    return .text (← textOfChunks chunks)
  | .array items =>
    if target.isRecord then .error (.mismatch .array none target .arrayForRecord)
    else .ok (.list items)
  | .map entries => .ok (.record entries)
  | .tag 2 (.bytes content) => offerBig target (Cbor.natOfBytes content)
  | .tag 3 (.bytes content) => offerBig target (-1 - Cbor.natOfBytes content)
  | .tag .. => .error (.mismatch .tag none target .wrongKind)
  | .simple n =>
    if n = 20 ∨ n = 21 then .error (.mismatch .primitive none target .wrongKind)
    else if n = 22 ∨ n = 23 then .ok .nothing
    else offerNat .primitive target n
  | .float _ => .error (.mismatch .primitive none target .wrongKind)

/-- The item's offer, seen through its tags, and the kind that a mismatch names. -/
def offered (target : Target) (item : Item) : Except ItemError (Kind × Offer) := do
  let bare ← withoutTags item
  return (bare.kind, ← offer target bare)

def readText (item : Item) : Except ItemError String := do
  match ← offered .text item with
  | (_, .nothing) => return ""
  | (_, .text s) => return s
  | (kind, _) => throw (.mismatch kind none .text .wrongKind)

def readInteger (item : Item) : Except ItemError Int64 := do
  match ← offered .integer item with
  | (_, .nothing) => return 0
  | (_, .integer n) => return n
  | (kind, _) => throw (.mismatch kind none .integer .wrongKind)

def readTexts (item : Item) : Except ItemError (List String) := do
  match ← offered .texts item with
  | (_, .nothing) => return []
  | (_, .list items) => items.mapM readText
  | (kind, _) => throw (.mismatch kind none .texts .wrongKind)

/-! ### Records -/

/-- The field that a key names, out of the fields 1 to `last`. -/
def fieldOfKey (last : Nat) : Item → Except ItemError (Option Nat)
  | .text chunks => do
    let name ← textOfChunks chunks
    return (List.range' 1 last).find? fun field => name == Decimal.ofNat field
  | .unsigned n => .ok (if 1 ≤ n ∧ n ≤ last then some n else none)
  | .negative n =>
    if n ≥ 0x8000000000000000 then
      .error (.mismatch .negative none .integerKey (.keyOverflow n))
    else .ok none
  | key => .error (.mismatch key.kind none .text (.keyKind key.kind))

/-- Fills a record from its entries in order. `seen` are the fields that have had their entry. -/
def fillRecord {α : Type} (last : Nat) (fill : Nat → Item → α → Except ItemError α) :
    List (Item × Item) → List Nat → α → Except ItemError α
  | [], _, record => .ok record
  | (key, value) :: rest, seen, record => do
    match ← fieldOfKey last key with
    | none => fillRecord last fill rest seen record
    | some field =>
      if field ∈ seen then fillRecord last fill rest seen record
      else
        let record ← fill field value record
        fillRecord last fill rest (field :: seen) record

def fillInstruction (field : Nat) (value : Item) (s : StoredInstruction) :
    Except ItemError StoredInstruction := do
  match field with
  | 1 => return { s with op := ← readText value }
  | 2 => return { s with args := ← readTexts value }
  | _ => return { s with offset := ← readInteger value }

def readInstruction (item : Item) : Except ItemError StoredInstruction := do
  match ← offered .instruction item with
  | (_, .nothing) => return {}
  | (_, .record entries) => fillRecord 3 fillInstruction entries [] {}
  | (kind, _) => throw (.mismatch kind none .instruction .wrongKind)

def readInstructions (item : Item) : Except ItemError (Option (List StoredInstruction)) := do
  match ← offered .instructions item with
  | (_, .nothing) => return none
  | (_, .list items) => return some (← items.mapM readInstruction)
  | (kind, _) => throw (.mismatch kind none .instructions .wrongKind)

def fillImage (field : Nat) (value : Item) (image : Image) : Except ItemError Image :=
  Except.mapError (ItemError.inField field) do
    match field with
    | 1 => return { image with magic := ← readText value }
    | 2 => return { image with version := ← readInteger value }
    | 3 => return { image with memSize := ← readInteger value }
    | _ => return { image with code := ← readInstructions value }

/-- The image in an item, with whatever magic and version it has. -/
def imageOfItem (item : Item) : Except ItemError Image := do
  match ← offered .image item with
  | (_, .nothing) => return {}
  | (_, .record entries) => fillRecord 4 fillImage entries [] {}
  | (kind, _) => throw (.mismatch kind none .image .wrongKind)

/-! ### Images -/

inductive ImageError where
  | malformed (e : Malformed)
  | unfit (e : ItemError)
  | notImage
  | unsupportedVersion (version : Int64)
  | tooManyOperands (index count : Nat)
  deriving DecidableEq, Repr, Inhabited

def ImageError.message : ImageError → String
  | .malformed e => "image: unmarshal: " ++ e.message
  | .unfit e => "image: unmarshal: " ++ e.message
  | .notImage => "not an SVM image"
  | .unsupportedVersion version => "image: unsupported version " ++ Decimal.ofInt64 version
  | .tooManyOperands index count =>
    "image: instruction " ++ Decimal.ofNat index ++ " has " ++ Decimal.ofNat count ++ " operands"

namespace Image

/-- An instruction with more operands than there are slots, and its index. -/
def oversized? : Nat → List StoredInstruction → Option (Nat × Nat)
  | _, [] => none
  | index, s :: rest =>
    if s.args.length > 3 then some (index, s.args.length) else oversized? (index + 1) rest

def check (image : Image) : Except ImageError Image :=
  if image.magic ≠ expectedMagic then .error .notImage
  else if image.version ≠ currentVersion then .error (.unsupportedVersion image.version)
  else
    match oversized? 0 image.stored with
    | some (index, count) => .error (.tooManyOperands index count)
    | none => .ok image

/-- The image that the bytes encode. -/
def read (bytes : List UInt8) : Except ImageError Image :=
  match Cbor.read bytes with
  | .error e => .error (.malformed e)
  | .ok item =>
    match imageOfItem item with
    | .error e => .error (.unfit e)
    | .ok image => image.check

/-- Whether a program file is taken for an image: one of its first ten bytes is neither a
printable ASCII character nor a tab or line end. -/
def isLikely (bytes : List UInt8) : Bool :=
  (bytes.take 10).any fun b =>
    !(b == 0x0A || b == 0x0D || b == 0x09 || (0x20 ≤ b && b ≤ 0x7E))

end Image

end RegisterMachine
