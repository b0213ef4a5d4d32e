import Mathlib.Data.List.Forall2
import RegisterMachine.Proofs.Cbor.Heads
import RegisterMachine.Proofs.Checks

/-!
# Items read back

A written item is read back at every depth that leaves room for its own nesting, with whatever
follows it, and with twice its length as fuel: a collection spends one unit on itself and one on
each of its elements, and none of these is empty.
-/

set_option autoImplicit false

namespace RegisterMachine.Cbor

open Checks

/-- The bytes are read as the item, in which collections are nested `height` deep. -/
structure Encodes (height : Nat) (bytes : List UInt8) (item : Item) : Prop where
  nonempty : bytes ≠ []
  reads : ∀ {depth fuel : Nat} (rest : List UInt8), depth + height ≤ maxDepth →
    2 * bytes.length ≤ fuel → readItem fuel depth false (bytes ++ rest) = .ok (item, rest)

namespace Encodes

variable {height : Nat} {bytes : List UInt8} {item : Item}

theorem mono (h : Encodes height bytes item) {height' : Nat} (hle : height ≤ height') :
    Encodes height' bytes item :=
  ⟨h.nonempty, fun rest hdepth hfuel => h.reads rest (by omega) hfuel⟩

theorem length_pos (h : Encodes height bytes item) : 0 < bytes.length :=
  List.length_pos_iff.mpr h.nonempty

/-- Fuel for the item is fuel for a first step. -/
theorem of_step (hne : bytes ≠ []) (h : ∀ {depth fuel : Nat} (rest : List UInt8),
      depth + height ≤ maxDepth → 2 * bytes.length ≤ fuel + 1 →
      readItem (fuel + 1) depth false (bytes ++ rest) = .ok (item, rest)) :
    Encodes height bytes item := by
  refine ⟨hne, fun {depth fuel} rest hdepth hfuel => ?_⟩
  have hpos := List.length_pos_iff.mpr hne
  obtain ⟨fuel, rfl⟩ : ∃ k, fuel = k + 1 := ⟨fuel - 1, by omega⟩
  exact h rest hdepth hfuel

end Encodes

/-! ### Atoms -/

theorem encodes_unsigned {n : Nat} (h : n < 2 ^ 64) :
    Encodes 0 (writeHead .unsigned n) (.unsigned n) := by
  refine .of_step (writeHead_ne_nil _ _) fun rest _ _ => ?_
  obtain ⟨information, hhead⟩ := readHead_writeHead .unsigned (by decide) n rest
  rw [readItem, hhead, Nat.mod_eq_of_lt h]

theorem encodes_negative {n : Nat} (h : n < 2 ^ 64) :
    Encodes 0 (writeHead .negative n) (.negative n) := by
  refine .of_step (writeHead_ne_nil _ _) fun rest _ _ => ?_
  obtain ⟨information, hhead⟩ := readHead_writeHead .negative (by decide) n rest
  rw [readItem, hhead, Nat.mod_eq_of_lt h]

/-- The item of a 64-bit number. -/
def integerItem (n : Int64) : Item :=
  match n.toInt with
  | .ofNat k => .unsigned k
  | .negSucc k => .negative k

theorem encodes_integer (n : Int64) : Encodes 0 (writeInt n) (integerItem n) := by
  have hlow := n.le_toInt
  have hhigh := n.toInt_lt
  unfold writeInt integerItem
  cases hk : n.toInt with
  | ofNat k =>
    rw [Int.ofNat_eq_natCast] at hk
    have hlt : k < 2 ^ 64 := by omega
    exact encodes_unsigned hlt
  | negSucc k =>
    have hlt : k < 2 ^ 64 := by omega
    exact encodes_negative hlt

theorem encodes_text {content : List UInt8} (h : content.length < 2 ^ 63) :
    Encodes 0 (writeText content) (.text [content]) := by
  refine .of_step (by simp [writeText, writeHead_ne_nil]) fun rest _ _ => ?_
  obtain ⟨information, hhead⟩ :=
    readHead_writeHead .text (by decide) content.length (content ++ rest)
  have hmod : content.length % 2 ^ 64 = content.length := Nat.mod_eq_of_lt (by omega)
  have hfits : ¬ content.length ≥ 0x8000000000000000 := by omega
  rw [writeText, List.append_assoc, readItem, hhead, hmod]
  simp only [readContent, if_neg hfits, splitBytes?_append rfl, stringItem, if_true]

/-! ### Collections -/

/-- Known elements are read off, and the others come behind them. -/
theorem readItems_append {height depth count fuel : Nat} {parts : List (List UInt8)}
    {items : List Item} (h : List.Forall₂ (Encodes height) parts items)
    (hdepth : depth + height ≤ maxDepth)
    (hfuel : 2 * parts.flatten.length + 1 ≤ fuel + items.length) (known : List Item)
    (rest : List UInt8) :
    readItems (fuel + items.length) depth (count + items.length) known (parts.flatten ++ rest) =
      readItems fuel depth count (items.reverse ++ known) rest := by
  induction h generalizing known with
  | nil => rfl
  | @cons bytes item parts items hitem hitems ih =>
    have hpos := hitem.length_pos
    rw [List.flatten_cons, List.length_append, List.length_cons] at hfuel
    have hread :
        readItem (fuel + items.length) depth false (bytes ++ (parts.flatten ++ rest)) = _ :=
      hitem.reads _ hdepth (by omega)
    rw [List.flatten_cons, List.append_assoc, List.length_cons, ← Nat.add_assoc, ← Nat.add_assoc,
      readItems, hread]
    simp only [ih (by omega) (item :: known), List.reverse_cons, List.append_assoc,
      List.singleton_append]

theorem readItems_zero (fuel depth : Nat) (known : List Item) (bytes : List UInt8) :
    readItems (fuel + 1) depth 0 known bytes = .ok (known.reverse, bytes) := by
  simp [readItems]

theorem length_le_flatten {height : Nat} {parts : List (List UInt8)} {items : List Item}
    (h : List.Forall₂ (Encodes height) parts items) : items.length ≤ parts.flatten.length := by
  induction h with
  | nil => exact Nat.le_refl _
  | cons hitem _ ih =>
    have hpos := hitem.length_pos
    rw [List.flatten_cons, List.length_append, List.length_cons]
    omega

theorem readItems_flatten {height depth fuel : Nat} {parts : List (List UInt8)}
    {items : List Item} (h : List.Forall₂ (Encodes height) parts items)
    (hdepth : depth + height ≤ maxDepth) (hfuel : 2 * parts.flatten.length + 1 ≤ fuel)
    (rest : List UInt8) :
    readItems fuel depth items.length [] (parts.flatten ++ rest) = .ok (items, rest) := by
  have hle := length_le_flatten h
  obtain ⟨left, rfl⟩ : ∃ left, fuel = left + 1 + items.length :=
    ⟨fuel - items.length - 1, by omega⟩
  have happend : readItems (left + 1 + items.length) depth (0 + items.length) []
      (parts.flatten ++ rest) = _ := readItems_append h hdepth hfuel [] rest
  rw [Nat.zero_add] at happend
  rw [happend, readItems_zero, List.append_nil, List.reverse_reverse]

/-- A collection is read as its announced number of elements. -/
theorem readItem_collection {kind : Kind} (hkind : kind = .array ∨ kind = .map)
    {depth fuel : Nat} (hdepth : depth + 1 ≤ maxDepth) (n : Nat) (bytes : List UInt8) :
    readItem (fuel + 1) depth false (writeHead kind n ++ bytes) = do
      let count ← elementCount kind (n % 2 ^ 64)
      let (items, rest) ← readItems fuel (depth + 1) count [] bytes
      return (collectionItem kind items, rest) := by
  obtain ⟨information, hhead⟩ :=
    readHead_writeHead kind (by rcases hkind with rfl | rfl <;> decide) n bytes
  rw [readItem, hhead]
  rcases hkind with rfl | rfl
  all_goals
    simp only [Nat.not_lt.mpr hdepth, if_false]
    cases elementCount _ (n % 2 ^ 64) with
    | error e => rfl
    | ok count =>
      simp only [ok_bind]
      cases readItems fuel (depth + 1) count [] bytes <;> rfl

theorem elementCount_array {n : Nat} (h : n ≤ maxElements) : elementCount .array n = .ok n := by
  unfold maxElements at h
  unfold elementCount
  rw [if_neg (by omega), if_neg (by decide), if_neg (by unfold maxElements; omega)]

theorem elementCount_map {n : Nat} (h : n ≤ maxElements) : elementCount .map n = .ok (2 * n) := by
  unfold maxElements at h
  unfold elementCount
  rw [if_neg (by omega), if_pos rfl, if_neg (by unfold maxElements; omega)]

theorem mod_of_le_maxElements {n : Nat} (h : n ≤ maxElements) : n % 2 ^ 64 = n :=
  Nat.mod_eq_of_lt (by unfold maxElements at h; omega)

/-- **An array is read back** if it is not too long. -/
theorem encodes_array {height : Nat} {parts : List (List UInt8)} {items : List Item}
    (h : List.Forall₂ (Encodes height) parts items) (hlen : items.length ≤ maxElements) :
    Encodes (height + 1) (writeArray parts) (.array items) := by
  refine .of_step (by simp [writeArray, writeHead_ne_nil]) fun {depth fuel} rest hdepth hfuel => ?_
  have hpos := List.length_pos_iff.mpr (writeHead_ne_nil .array parts.length)
  rw [writeArray, List.length_append] at hfuel
  rw [writeArray, List.append_assoc, readItem_collection (.inl rfl) (by omega), h.length_eq,
    mod_of_le_maxElements hlen, elementCount_array hlen, ok_bind,
    readItems_flatten h (by omega) (by omega)]
  rfl

/-- **An array that is too long is not read**: it is refused, or something is left over where its
length does not fit into its head. -/
theorem readItem_array_ne_ok {height : Nat} {parts : List (List UInt8)} {items : List Item}
    (h : List.Forall₂ (Encodes height) parts items) (hlong : maxElements < items.length)
    {depth fuel : Nat} (hdepth : depth + 1 + height ≤ maxDepth)
    (hfuel : 2 * (writeArray parts).length ≤ fuel) (item : Item) :
    readItem fuel depth false (writeArray parts) ≠ .ok (item, []) := by
  have hpos := List.length_pos_iff.mpr (writeHead_ne_nil .array parts.length)
  rw [writeArray, List.length_append] at hfuel
  obtain ⟨fuel, rfl⟩ : ∃ k, fuel = k + 1 := ⟨fuel - 1, by omega⟩
  rw [writeArray, readItem_collection (.inl rfl) (by omega), h.length_eq]
  intro hok
  obtain ⟨count, hcount, hok⟩ := bind_eq_ok.mp hok
  obtain ⟨⟨found, left⟩, hread, hok⟩ := bind_eq_ok.mp hok
  obtain rfl : left = [] := congrArg Prod.snd (Except.ok.inj hok)
  have hle : items.length % 2 ^ 64 ≤ maxElements := by
    unfold elementCount at hcount
    split at hcount
    · cases hcount
    · rw [if_neg (by decide)] at hcount
      split at hcount
      · cases hcount
      · omega
  obtain rfl : items.length % 2 ^ 64 = count := by
    rw [elementCount_array hle] at hcount
    exact Except.ok.inj hcount
  generalize items.length % 2 ^ 64 = count at hle hread
  -- Only the first `count` elements are read, so the others are left.
  have hsplit : parts.flatten = (parts.take count).flatten ++ (parts.drop count).flatten := by
    rw [← List.flatten_append, List.take_append_drop]
  have hrest := length_le_flatten (List.forall₂_drop count h)
  rw [hsplit, List.length_append] at hfuel
  have htaken : readItems fuel (depth + 1) (items.take count).length [] parts.flatten = _ :=
    hsplit ▸ readItems_flatten (List.forall₂_take count h) (by omega) (by omega) _
  rw [List.length_take_of_le (by omega), hread] at htaken
  have hnil : [] = (parts.drop count).flatten := congrArg Prod.snd (Except.ok.inj htaken)
  rw [← hnil, List.length_drop, List.length_nil] at hrest
  omega

/-! ### Records -/

/-- The item of a map from small numbers. -/
def recordItem (entries : List (Nat × Item)) : Item :=
  .map (entries.map fun e => (.unsigned e.1, e.2))

structure FieldEncodes (height : Nat) (field : Nat × List UInt8) (entry : Nat × Item) : Prop where
  key : field.1 = entry.1
  small : field.1 < 2 ^ 64
  value : Encodes height field.2 entry.2

/-- Keys and values in turn. -/
def recordParts (fields : List (Nat × List UInt8)) : List (List UInt8) :=
  fields.flatMap fun f => [writeHead .unsigned f.1, f.2]

def recordItems (entries : List (Nat × Item)) : List Item :=
  entries.flatMap fun e => [.unsigned e.1, e.2]

theorem writeRecord_eq (fields : List (Nat × List UInt8)) :
    writeRecord fields = writeHead .map fields.length ++ (recordParts fields).flatten := by
  have hparts : (fields.flatMap fun f => writeHead .unsigned f.1 ++ f.2) =
      (recordParts fields).flatten := by
    induction fields with
    | nil => rfl
    | cons f fields ih => simp_all [recordParts]
  rw [writeRecord, hparts]

theorem length_recordItems (entries : List (Nat × Item)) :
    (recordItems entries).length = 2 * entries.length := by
  induction entries with
  | nil => rfl
  | cons e entries ih =>
    simp_all [recordItems]
    omega

theorem collectionItem_recordItems (entries : List (Nat × Item)) :
    collectionItem .map (recordItems entries) = recordItem entries := by
  have hpairs : pairUp (recordItems entries) = entries.map fun e => (.unsigned e.1, e.2) := by
    induction entries with
    | nil => rfl
    | cons e entries ih => exact congrArg _ ih
  rw [collectionItem, if_pos rfl, hpairs, recordItem]

theorem recordParts_encode {height : Nat} {fields : List (Nat × List UInt8)}
    {entries : List (Nat × Item)} (h : List.Forall₂ (FieldEncodes height) fields entries) :
    List.Forall₂ (Encodes height) (recordParts fields) (recordItems entries) := by
  induction h with
  | nil => exact .nil
  | cons hfield _ ih =>
    have hkey := (encodes_unsigned hfield.small).mono (Nat.zero_le height)
    exact .cons (hfield.key ▸ hkey) (.cons hfield.value ih)

/-- **A record is read back.** -/
theorem encodes_record {height : Nat} {fields : List (Nat × List UInt8)}
    {entries : List (Nat × Item)} (h : List.Forall₂ (FieldEncodes height) fields entries)
    (hlen : entries.length ≤ maxElements) :
    Encodes (height + 1) (writeRecord fields) (recordItem entries) := by
  rw [writeRecord_eq]
  refine .of_step (by simp [writeHead_ne_nil]) fun {depth fuel} rest hdepth hfuel => ?_
  have hpos := List.length_pos_iff.mpr (writeHead_ne_nil .map fields.length)
  rw [List.length_append] at hfuel
  rw [List.append_assoc, readItem_collection (.inr rfl) (by omega), h.length_eq,
    mod_of_le_maxElements hlen, elementCount_map hlen, ok_bind, ← length_recordItems,
    readItems_flatten (recordParts_encode h) (by omega) (by omega)]
  exact congrArg (fun item => Except.ok (item, rest)) (collectionItem_recordItems entries)

/-- How a record is read depends on its last field alone, if the others can be read. -/
theorem readItem_record_last {height : Nat} {fields : List (Nat × List UInt8)}
    {entries : List (Nat × Item)} (h : List.Forall₂ (FieldEncodes height) fields entries)
    {key : Nat} (hkey : key < 2 ^ 64) (hlen : entries.length + 1 ≤ maxElements) {depth fuel : Nat}
    (hdepth : depth + 1 + height ≤ maxDepth) (value : List UInt8)
    (hfuel : 2 * (writeRecord (fields ++ [(key, value)])).length ≤ fuel + 1) :
    ∃ left, 2 * value.length ≤ left ∧
      readItem (fuel + 1) depth false (writeRecord (fields ++ [(key, value)])) = do
        let (item, rest) ← readItem left (depth + 1) false value
        return (recordItem (entries ++ [(key, item)]), rest) := by
  -- All but the last value are elements that can be read.
  have hparts : List.Forall₂ (Encodes height) (recordParts fields ++ [writeHead .unsigned key])
      (recordItems entries ++ [.unsigned key]) :=
    List.rel_append (recordParts_encode h)
      (.cons ((encodes_unsigned hkey).mono (Nat.zero_le height)) .nil)
  have hbytes : writeRecord (fields ++ [(key, value)]) = writeHead .map (fields.length + 1) ++
      ((recordParts fields ++ [writeHead .unsigned key]).flatten ++ value) := by
    rw [writeRecord_eq, List.length_append]
    simp [recordParts]
  have hle := length_le_flatten hparts
  have hpos := List.length_pos_iff.mpr (writeHead_ne_nil .map (fields.length + 1))
  have hcount : 2 * (entries.length + 1) =
      1 + (recordItems entries ++ [Item.unsigned key]).length := by
    rw [List.length_append, length_recordItems, List.length_singleton]
    omega
  rw [hbytes, List.length_append, List.length_append] at hfuel
  obtain ⟨left, rfl⟩ : ∃ left, fuel =
      left + 1 + 1 + (recordItems entries ++ [Item.unsigned key]).length :=
    ⟨fuel - (recordItems entries ++ [Item.unsigned key]).length - 2, by omega⟩
  refine ⟨left + 1, by omega, ?_⟩
  rw [hbytes, readItem_collection (.inr rfl) (by omega), h.length_eq, mod_of_le_maxElements hlen,
    elementCount_map hlen, ok_bind, hcount, readItems_append hparts hdepth (by omega), readItems]
  cases readItem (left + 1) (depth + 1) false value with
  | error e => rfl
  | ok result =>
    obtain ⟨item, rest⟩ := result
    have hitems : (item :: ((recordItems entries ++ [Item.unsigned key]).reverse ++ [])).reverse =
        recordItems (entries ++ [(key, item)]) := by
      simp [recordItems]
    simp only [readItems_zero, ok_bind, hitems, collectionItem_recordItems]

/-! ### Items without anything behind them -/

theorem read_eq_ok {bytes : List UInt8} {item : Item} :
    read bytes = .ok item ↔
      bytes ≠ [] ∧ readItem (fuelFor bytes.length) 0 false bytes = .ok (item, []) := by
  unfold read
  cases bytes with
  | nil => simp
  | cons byte bytes =>
    rw [if_neg (by simp)]
    cases readItem (fuelFor (byte :: bytes).length) 0 false (byte :: bytes) with
    | error e => simp
    | ok result =>
      obtain ⟨found, rest⟩ := result
      cases rest <;> simp

end RegisterMachine.Cbor
