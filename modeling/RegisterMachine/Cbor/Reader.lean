import RegisterMachine.Cbor.Item
import RegisterMachine.Text.Decimal

/-!
# Reading items

A byte sequence is read as exactly one item. The first violation of the format, in the order of
the bytes, is reported. Collections are limited in size and nesting.
-/

set_option autoImplicit false

namespace RegisterMachine.Cbor

/-- The most elements of an array and the most pairs of a map. -/
def maxElements : Nat := 131072

/-- The deepest nesting: every array and map counts, and every tag directly behind a tag. -/
def maxDepth : Nat := 32

inductive Malformed where
  | empty
  /-- The bytes end inside the item. -/
  | truncated
  | extraneous (count index : Nat)
  | badInformation (information : Nat) (kind : Kind)
  | badSimple (n : Nat)
  | strayBreak
  | chunkKind (found whole : Kind)
  | chunkIndefinite (whole : Kind)
  | stringTooLong (kind : Kind) (length : Nat)
  | collectionTooLong (kind : Kind) (length : Nat)
  | tooManyElements
  | tooManyPairs
  | tooDeep
  deriving DecidableEq, Repr, Inhabited

def Malformed.message : Malformed → String
  | .empty => "EOF"
  | .truncated => "unexpected EOF"
  | .extraneous count index =>
    "cbor: " ++ Decimal.ofNat count ++ " bytes of extraneous data starting at index "
      ++ Decimal.ofNat index
  | .badInformation information kind =>
    "cbor: invalid additional information " ++ Decimal.ofNat information ++ " for type "
      ++ kind.name
  | .badSimple n =>
    "cbor: invalid simple value " ++ Decimal.ofNat n ++ " for type " ++ Kind.primitive.name
  | .strayBreak => "cbor: unexpected \"break\" code"
  | .chunkKind found whole =>
    "cbor: wrong element type " ++ found.name ++ " for indefinite-length " ++ whole.name
  | .chunkIndefinite whole =>
    "cbor: indefinite-length " ++ whole.name ++ " chunk is not definite-length"
  | .stringTooLong kind length =>
    "cbor: " ++ kind.name ++ " length " ++ Decimal.ofNat length
      ++ " is too large, causing integer overflow"
  | .collectionTooLong kind length =>
    "cbor: " ++ kind.name ++ " length " ++ Decimal.ofNat length
      ++ " is too large, it would cause integer overflow"
  | .tooManyElements =>
    "cbor: exceeded max number of elements " ++ Decimal.ofNat maxElements ++ " for CBOR array"
  | .tooManyPairs =>
    "cbor: exceeded max number of key-value pairs " ++ Decimal.ofNat maxElements
      ++ " for CBOR map"
  | .tooDeep => "cbor: exceeded max nested level " ++ Decimal.ofNat maxDepth

/-- The number that an initial byte announces, or an indefinite length. -/
inductive Argument where
  | value (n : Nat)
  | indefinite
  deriving DecidableEq, Repr, Inhabited

structure Head where
  kind : Kind
  /-- The lower five bits of the initial byte. -/
  information : Nat
  argument : Argument
  deriving DecidableEq, Repr, Inhabited

/-- Big-endian. -/
def natOfBytes (bytes : List UInt8) : Nat :=
  bytes.foldl (fun n b => n * 256 + b.toNat) 0

/-- The first `n` bytes and the rest, if there are that many. -/
def splitBytes? (n : Nat) (bytes : List UInt8) : Option (List UInt8 × List UInt8) :=
  let front := bytes.take n
  if front.length < n then none else some (front, bytes.drop n)

/-- How many bytes of argument follow an initial byte with this information. -/
def argumentWidth? : Nat → Option Nat
  | 24 => some 1
  | 25 => some 2
  | 26 => some 4
  | 27 => some 8
  | _ => none

def breakByte : UInt8 := 0xFF

/-- The head of an item. A break is a head of no item. -/
def readHead : List UInt8 → Except Malformed (Head × List UInt8)
  | [] => .error .truncated
  | initial :: rest =>
    let kind := Kind.ofInitial initial
    let information := initial.toNat % 32
    if information < 24 then .ok ({ kind, information, argument := .value information }, rest)
    else
      match argumentWidth? information with
      | some width =>
        match splitBytes? width rest with
        | none => .error .truncated
        | some (front, rest) =>
          let n := natOfBytes front
          if kind = .primitive ∧ width = 1 ∧ n < 32 then .error (.badSimple n)
          else .ok ({ kind, information, argument := .value n }, rest)
      | none =>
        if information = 31 then
          match kind with
          | .unsigned | .negative | .tag => .error (.badInformation information kind)
          | .primitive => .error .strayBreak
          | _ => .ok ({ kind, information, argument := .indefinite }, rest)
        else .error (.badInformation information kind)

/-- The content of a string of definite length. -/
def readContent (kind : Kind) (length : Nat) (bytes : List UInt8) :
    Except Malformed (List UInt8 × List UInt8) :=
  if length ≥ 0x8000000000000000 then .error (.stringTooLong kind length)
  else
    match splitBytes? length bytes with
    | none => .error .truncated
    | some split => .ok split

/-- One chunk of a string of indefinite length. -/
def readChunk (whole : Kind) (bytes : List UInt8) :
    Except Malformed (List UInt8 × List UInt8) := do
  match bytes with
  | [] => throw .truncated
  | initial :: _ =>
    let found := Kind.ofInitial initial
    if found ≠ whole then throw (.chunkKind found whole)
    if initial.toNat % 32 = 31 then throw (.chunkIndefinite whole)
    let (head, rest) ← readHead bytes
    match head.argument with
    | .value length => readContent whole length rest
    | .indefinite => throw (.chunkIndefinite whole)

/-- The chunks up to the break, of which `known` are read already, the last first. -/
def readChunks (whole : Kind) : Nat → List (List UInt8) → List UInt8 →
    Except Malformed (List (List UInt8) × List UInt8)
  | 0, _, _ => .error .truncated
  | _, _, [] => .error .truncated
  | fuel + 1, known, byte :: rest =>
    if byte = breakByte then .ok (known.reverse, rest)
    else
      match readChunk whole (byte :: rest) with
      | .error e => .error e
      | .ok (chunk, rest) => readChunks whole fuel (chunk :: known) rest

/-- Keys and values in turn, as pairs. -/
def pairUp : List Item → List (Item × Item)
  | key :: value :: rest => (key, value) :: pairUp rest
  | _ => []

def stringItem (kind : Kind) (chunks : List (List UInt8)) : Item :=
  if kind = .text then .text chunks else .bytes chunks.flatten

def collectionItem (kind : Kind) (items : List Item) : Item :=
  if kind = .map then .map (pairUp items) else .array items

/-- Whether a collection of indefinite length has grown too large with its latest element. -/
def overfull? (kind : Kind) (count : Nat) : Option Malformed :=
  if kind = .map then
    if count % 2 = 0 ∧ count / 2 > maxElements then some .tooManyPairs else none
  else if count > maxElements then some .tooManyElements else none

/-- The announced number of elements of a collection. -/
def elementCount (kind : Kind) (length : Nat) : Except Malformed Nat :=
  if length ≥ 0x8000000000000000 then .error (.collectionTooLong kind length)
  else if kind = .map then
    if length > maxElements then .error .tooManyPairs else .ok (2 * length)
  else if length > maxElements then .error .tooManyElements
  else .ok length

mutual

/-- One item at nesting `depth`; `tagged` tells that a tag stands directly in front. The fuel
bounds the recursion: every item takes at least one byte. -/
def readItem : Nat → Nat → Bool → List UInt8 → Except Malformed (Item × List UInt8)
  | 0, _, _, _ => .error .truncated
  | fuel + 1, depth, tagged, bytes =>
    match readHead bytes with
    | .error e => .error e
    | .ok (head, rest) =>
      match head.kind, head.argument with
      | .unsigned, .value n => .ok (.unsigned n, rest)
      | .negative, .value n => .ok (.negative n, rest)
      | .primitive, .value n =>
        .ok (if head.information ≤ 24 then .simple n else .float n, rest)
      | .tag, .value number =>
        let depth := if tagged then depth + 1 else depth
        if depth > maxDepth then .error .tooDeep
        else
          match readItem fuel depth true rest with
          | .error e => .error e
          | .ok (content, rest) => .ok (.tag number content, rest)
      | .bytes, .value length | .text, .value length =>
        match readContent head.kind length rest with
        | .error e => .error e
        | .ok (content, rest) => .ok (stringItem head.kind [content], rest)
      | .bytes, .indefinite | .text, .indefinite =>
        match readChunks head.kind fuel [] rest with
        | .error e => .error e
        | .ok (chunks, rest) => .ok (stringItem head.kind chunks, rest)
      | .array, .value length | .map, .value length =>
        if depth + 1 > maxDepth then .error .tooDeep
        else
          match elementCount head.kind length with
          | .error e => .error e
          | .ok count =>
            match readItems fuel (depth + 1) count [] rest with
            | .error e => .error e
            | .ok (items, rest) => .ok (collectionItem head.kind items, rest)
      | .array, .indefinite | .map, .indefinite =>
        if depth + 1 > maxDepth then .error .tooDeep
        else
          match readUntilBreak fuel (depth + 1) head.kind 0 [] rest with
          | .error e => .error e
          | .ok (items, rest) => .ok (collectionItem head.kind items, rest)
      | kind, .indefinite => .error (.badInformation head.information kind)

/-- `count` items behind those in `known`, which holds the last first. -/
def readItems : Nat → Nat → Nat → List Item → List UInt8 →
    Except Malformed (List Item × List UInt8)
  | 0, _, _, _, _ => .error .truncated
  | _, _, 0, known, bytes => .ok (known.reverse, bytes)
  | fuel + 1, depth, count + 1, known, bytes =>
    match readItem fuel depth false bytes with
    | .error e => .error e
    | .ok (item, rest) => readItems fuel depth count (item :: known) rest

/-- The items up to the break, of which the `count` in `known` are read already. -/
def readUntilBreak : Nat → Nat → Kind → Nat → List Item → List UInt8 →
    Except Malformed (List Item × List UInt8)
  | 0, _, _, _, _, _ => .error .truncated
  | _, _, _, _, _, [] => .error .truncated
  | fuel + 1, depth, kind, count, known, byte :: rest =>
    if byte = breakByte then
      if kind = .map ∧ count % 2 = 1 then .error .strayBreak else .ok (known.reverse, rest)
    else
      match readItem fuel depth false (byte :: rest) with
      | .error e => .error e
      | .ok (item, rest) =>
        match overfull? kind (count + 1) with
        | some e => .error e
        | none => readUntilBreak fuel depth kind (count + 1) (item :: known) rest

end

/-- Enough fuel for any item in `length` bytes. -/
def fuelFor (length : Nat) : Nat :=
  2 * length + 2

/-- The item that the bytes are, with nothing behind it. -/
def read (bytes : List UInt8) : Except Malformed Item :=
  if bytes.isEmpty then .error .empty
  else
    match readItem (fuelFor bytes.length) 0 false bytes with
    | .error e => .error e
    | .ok (item, rest) =>
      if rest.isEmpty then .ok item
      else .error (.extraneous rest.length (bytes.length - rest.length))

end RegisterMachine.Cbor
