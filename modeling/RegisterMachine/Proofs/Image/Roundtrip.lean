import Mathlib.Data.List.TakeWhile
import RegisterMachine.Image.Reader
import RegisterMachine.Image.Writer
import RegisterMachine.Proofs.Cbor.Items
import RegisterMachine.Proofs.Text.Utf8

/-!
# Images read back

A written image is read back exactly when its program has no more instructions than an array may
have elements. The bytes of an image are first read as an item, and the item then as the image.
-/

set_option autoImplicit false

namespace RegisterMachine

open Cbor Checks

/-! ### Values -/

def textItem (s : String) : Item :=
  .text [Utf8.encode s]

theorem readText_textItem (s : String) : readText (textItem s) = .ok s := by
  simp [readText, textItem, offered, withoutTags, offer, textOfChunks, Utf8.decode?_encode,
    ok_bind, pure_eq]

theorem readInteger_integerItem (n : Int64) : readInteger (integerItem n) = .ok n := by
  have hlow := n.le_toInt
  have hhigh := n.toInt_lt
  unfold integerItem
  cases hn : n.toInt with
  | ofNat k =>
    rw [Int.ofNat_eq_natCast] at hn
    have hfits : ¬ 0x8000000000000000 ≤ k := by omega
    have hvalue : Int64.ofNat k = n := by rw [← Int64.ofInt_eq_ofNat, ← hn, Int64.ofInt_toInt]
    simp [readInteger, offered, withoutTags, offer, offerNat, hfits, hvalue, ok_bind, pure_eq]
  | negSucc k =>
    have hfits : ¬ 0x8000000000000000 ≤ k := by omega
    have hvalue : Int64.ofInt (-1 - k) = n := by
      rw [← Int64.ofInt_toInt n, hn]
      congr 1
      omega
    simp only [readInteger, offered, withoutTags, offer, ge_iff_le, hfits, if_false, hvalue,
      ok_bind, pure_eq]

theorem forall₂_map {α β γ : Type} {R : β → γ → Prop} {f : α → β} {g : α → γ} {xs : List α}
    (h : ∀ x ∈ xs, R (f x) (g x)) : List.Forall₂ R (xs.map f) (xs.map g) := by
  rw [List.forall₂_map_left_iff, List.forall₂_map_right_iff, List.forall₂_same]
  exact h

theorem readTexts_array (ss : List String) : readTexts (.array (ss.map textItem)) = .ok ss :=
  mapM_eq_ok fun s _ => readText_textItem s

/-! ### Stored instructions -/

theorem fillRecord_cons {α : Type} {last : Nat} {fill : Nat → Item → α → Except ItemError α}
    {key : Nat} {value : Item} {entries : List (Item × Item)} {seen : List Nat}
    {record record' : α} (hkey : 1 ≤ key ∧ key ≤ last) (hnew : key ∉ seen)
    (hfill : fill key value record = .ok record') :
    fillRecord last fill ((.unsigned key, value) :: entries) seen record =
      fillRecord last fill entries (key :: seen) record' := by
  simp only [fillRecord, fieldOfKey, if_pos hkey, ok_bind, if_neg hnew, hfill]

namespace StoredInstruction

/-- The fields that are written, as items. -/
def entries (s : StoredInstruction) : List (Nat × Item) :=
  [(1, textItem s.op)]
    ++ (if s.args.isEmpty then [] else [(2, .array (s.args.map textItem))])
    ++ (if s.offset = 0 then [] else [(3, integerItem s.offset)])

def item (s : StoredInstruction) : Item :=
  recordItem s.entries

/-- The texts have fewer than 2^63 bytes and fill at most three slots. -/
structure Fits (s : StoredInstruction) : Prop where
  op : (Utf8.encode s.op).length < 2 ^ 63
  args : ∀ arg ∈ s.args, (Utf8.encode arg).length < 2 ^ 63
  count : s.args.length ≤ 3

section Filling

variable (s : StoredInstruction)

theorem fillInstruction_op (op : String) :
    fillInstruction 1 (textItem op) s = .ok { s with op } := by
  simp only [fillInstruction, readText_textItem, ok_bind, pure_eq]

theorem fillInstruction_args (args : List String) :
    fillInstruction 2 (.array (args.map textItem)) s = .ok { s with args } := by
  simp only [fillInstruction, readTexts_array, ok_bind, pure_eq]

theorem fillInstruction_offset (offset : Int64) :
    fillInstruction 3 (integerItem offset) s = .ok { s with offset } := by
  simp only [fillInstruction, readInteger_integerItem, ok_bind, pure_eq]

end Filling

theorem readInstruction_recordItem (entries : List (Nat × Item)) :
    readInstruction (recordItem entries) =
      fillRecord 3 fillInstruction (entries.map fun e => (.unsigned e.1, e.2)) [] {} := rfl

/-- Fields that are left out have the values that a record starts with. -/
theorem readInstruction_item (s : StoredInstruction) : readInstruction s.item = .ok s := by
  obtain ⟨op, args, offset⟩ := s
  rw [item, readInstruction_recordItem, entries, List.append_assoc, List.singleton_append,
    List.map_cons, fillRecord_cons (by decide) (by decide) (fillInstruction_op {} op)]
  by_cases hargs : args = [] <;> by_cases hoffset : offset = 0
  · subst hargs hoffset
    rfl
  · simp only [hargs, List.isEmpty_nil, if_true, hoffset, if_false, List.nil_append, List.map_cons,
      List.map_nil]
    exact fillRecord_cons (by decide) (by decide) (fillInstruction_offset _ offset)
  · simp only [List.isEmpty_iff, hargs, if_false, hoffset, if_true, List.append_nil, List.map_cons,
      List.map_nil]
    exact fillRecord_cons (by decide) (by decide) (fillInstruction_args _ args)
  · simp only [List.isEmpty_iff, hargs, if_false, hoffset, List.singleton_append, List.map_cons,
      List.map_nil]
    rw [fillRecord_cons (by decide) (by decide) (fillInstruction_args _ args)]
    exact fillRecord_cons (by decide) (by decide) (fillInstruction_offset _ offset)

theorem length_entries_le (s : StoredInstruction) : s.entries.length ≤ maxElements := by
  unfold entries maxElements
  repeat' split
  all_goals simp

theorem encodes_item {s : StoredInstruction} (h : s.Fits) : Encodes 2 s.write s.item := by
  have hop : FieldEncodes 1 (1, writeString s.op) (1, textItem s.op) :=
    ⟨rfl, show 1 < 2 ^ 64 by decide, (encodes_text h.op).mono (by decide)⟩
  have hcount : (s.args.map textItem).length ≤ maxElements := by
    have := h.count
    rw [List.length_map]
    unfold maxElements
    omega
  have hargs : FieldEncodes 1 (2, writeArray (s.args.map writeString))
      (2, .array (s.args.map textItem)) :=
    ⟨rfl, show 2 < 2 ^ 64 by decide,
      encodes_array (forall₂_map fun arg harg => encodes_text (h.args arg harg)) hcount⟩
  have hoffset : FieldEncodes 1 (3, writeInt s.offset) (3, integerItem s.offset) :=
    ⟨rfl, show 3 < 2 ^ 64 by decide, (encodes_integer s.offset).mono (by decide)⟩
  refine encodes_record (List.rel_append (List.rel_append (.cons hop .nil) ?_) ?_)
    s.length_entries_le
  · split
    · exact .nil
    · exact .cons hargs .nil
  · split
    · exact .nil
    · exact .cons hoffset .nil

end StoredInstruction

/-! ### Instructions -/

theorem Opcode.ofMnemonic_name {op : Opcode} (h : op.number ≤ 26) :
    Opcode.ofMnemonic op.name = op := by
  cases op with
  | undefined excess =>
    rw [Opcode.number] at h
    omega
  | _ => decide

/-- Empty operands at the end are the only ones that are left out. -/
theorem StoredInstruction.args_eq (i : Instruction) :
    ∃ n, i.args = (StoredInstruction.ofInstruction i).args ++ List.replicate n "" := by
  have hempty : ∀ token ∈ (i.args.reverse.takeWhile (· = "")).reverse, token = "" := by
    intro token ht
    simpa using List.mem_takeWhile_imp (List.mem_reverse.mp ht)
  refine ⟨(i.args.reverse.takeWhile (· = "")).reverse.length, ?_⟩
  rw [← List.eq_replicate_of_mem hempty, StoredInstruction.ofInstruction, ← List.reverse_append,
    List.takeWhile_append_dropWhile, List.reverse_reverse]

theorem StoredInstruction.toInstruction_ofInstruction {i : Instruction} (h : i.op.number ≤ 26) :
    (StoredInstruction.ofInstruction i).toInstruction = i := by
  obtain ⟨n, hargs⟩ := StoredInstruction.args_eq i
  change Instruction.ofArgs (Opcode.ofMnemonic i.op.name)
    (StoredInstruction.ofInstruction i).args i.offset = i
  rw [Opcode.ofMnemonic_name h, ← Instruction.ofArgs_append_empty _ _ n, ← hargs]
  rfl

/-- The operand tokens have fewer than 2^63 bytes, so that their lengths are 64-bit integers like
every length of a text. The reader takes no longer string. -/
def Instruction.Fits (i : Instruction) : Prop :=
  ∀ arg ∈ i.args, (Utf8.encode arg).length < 2 ^ 63

instance (i : Instruction) : Decidable i.Fits :=
  inferInstanceAs (Decidable (∀ arg ∈ i.args, _))

theorem StoredInstruction.fits_ofInstruction {i : Instruction} (hop : i.op.number ≤ 26)
    (hargs : i.Fits) : (StoredInstruction.ofInstruction i).Fits := by
  obtain ⟨n, heq⟩ := StoredInstruction.args_eq i
  refine ⟨?_, fun arg harg => ?_, ?_⟩
  · change (Utf8.encode i.op.name).length < 2 ^ 63
    cases hi : i.op with
    | undefined excess =>
      rw [hi, Opcode.number] at hop
      omega
    | _ => decide
  · exact hargs arg (heq ▸ List.mem_append_left _ harg)
  · have hlen : i.args.length = 3 := rfl
    rw [heq, List.length_append] at hlen
    omega

/-! ### Images -/

namespace Image

/-- The fields in front of the program, as items. -/
def frontEntries (image : Image) : List (Nat × Item) :=
  [(1, textItem image.magic), (2, integerItem image.version), (3, integerItem image.memSize)]

/-- An image is an item if and only if its program is. -/
theorem read_write_iff {image : Image} {code : List StoredInstruction}
    (hmagic : (Utf8.encode image.magic).length < 2 ^ 63) (hcode : image.code = some code) :
    ∃ fuel, 2 * (writeArray (code.map StoredInstruction.write)).length ≤ fuel ∧
      ∀ item, Cbor.read image.write = .ok item ↔
        ∃ value, readItem fuel 1 false (writeArray (code.map StoredInstruction.write)) =
            .ok (value, []) ∧
          recordItem (image.frontEntries ++ [(4, value)]) = item := by
  have hfields : List.Forall₂ (FieldEncodes 0) [(1, writeString image.magic),
      (2, writeInt image.version), (3, writeInt image.memSize)] image.frontEntries :=
    .cons ⟨rfl, show 1 < 2 ^ 64 by decide, encodes_text hmagic⟩
      (.cons ⟨rfl, show 2 < 2 ^ 64 by decide, encodes_integer _⟩
        (.cons ⟨rfl, show 3 < 2 ^ 64 by decide, encodes_integer _⟩ .nil))
  have hwrite : image.write = writeRecord ([(1, writeString image.magic),
      (2, writeInt image.version), (3, writeInt image.memSize)] ++
        [(4, writeArray (code.map StoredInstruction.write))]) := by
    rw [write, hcode]
    rfl
  have hne : image.write ≠ [] := by simp [write, writeRecord, writeHead_ne_nil]
  have hlen : image.frontEntries.length + 1 ≤ maxElements := show 4 ≤ 131072 by decide
  obtain ⟨fuel, hfuel, hread⟩ := readItem_record_last hfields (show 4 < 2 ^ 64 by decide) hlen
    (show 0 + 1 + 0 ≤ 32 by decide) (writeArray (code.map StoredInstruction.write))
    (Nat.le_add_right _ 2)
  refine ⟨fuel, hfuel, fun item => ?_⟩
  rw [← hwrite] at hread
  rw [Cbor.read_eq_ok, and_iff_right hne, fuelFor, hread]
  cases readItem fuel 1 false (writeArray (code.map StoredInstruction.write)) with
  | error e => simp
  | ok result =>
    obtain ⟨value, rest⟩ := result
    simp [ok_bind, pure_eq, and_comm]

section Filling

variable (image : Image)

theorem fillImage_magic (magic : String) :
    fillImage 1 (textItem magic) image = .ok { image with magic } := by
  simp only [fillImage, readText_textItem, ok_bind, pure_eq, Except.mapError]

theorem fillImage_version (version : Int64) :
    fillImage 2 (integerItem version) image = .ok { image with version } := by
  simp only [fillImage, readInteger_integerItem, ok_bind, pure_eq, Except.mapError]

theorem fillImage_memSize (memSize : Int64) :
    fillImage 3 (integerItem memSize) image = .ok { image with memSize } := by
  simp only [fillImage, readInteger_integerItem, ok_bind, pure_eq, Except.mapError]

theorem readInstructions_array (code : List StoredInstruction) :
    readInstructions (.array (code.map StoredInstruction.item)) = .ok (some code) := by
  have hmap : (code.map StoredInstruction.item).mapM readInstruction = .ok code :=
    mapM_eq_ok fun s _ => s.readInstruction_item
  change ((code.map StoredInstruction.item).mapM readInstruction >>= fun c => pure (some c)) = _
  rw [hmap]
  rfl

theorem fillImage_code {value : Item} {code : Option (List StoredInstruction)}
    (h : readInstructions value = .ok code) :
    fillImage 4 value image = .ok { image with code } := by
  simp only [fillImage, h, ok_bind, pure_eq, Except.mapError]

end Filling

theorem imageOfItem_recordItem (entries : List (Nat × Item)) :
    imageOfItem (recordItem entries) =
      fillRecord 4 fillImage (entries.map fun e => (.unsigned e.1, e.2)) [] {} := rfl

theorem imageOfItem_entries {image : Image} {value : Item}
    (hcode : readInstructions value = .ok image.code) :
    imageOfItem (recordItem (image.frontEntries ++ [(4, value)])) = .ok image := by
  obtain ⟨magic, version, memSize, code⟩ := image
  rw [imageOfItem_recordItem]
  simp only [frontEntries, List.cons_append, List.nil_append, List.map_cons, List.map_nil]
  rw [fillRecord_cons (by decide) (by decide) (fillImage_magic {} magic),
    fillRecord_cons (by decide) (by decide) (fillImage_version _ version),
    fillRecord_cons (by decide) (by decide) (fillImage_memSize _ memSize),
    fillRecord_cons (by decide) (by decide) (fillImage_code _ hcode)]
  rfl

theorem oversized?_eq_none {code : List StoredInstruction} (h : ∀ s ∈ code, s.args.length ≤ 3)
    (index : Nat) : oversized? index code = none := by
  induction code generalizing index with
  | nil => rfl
  | cons s code ih =>
    obtain ⟨hs, hcode⟩ := List.forall_mem_cons.mp h
    rw [oversized?, if_neg (Nat.not_lt.mpr hs)]
    exact ih hcode (index + 1)

theorem magic_fits : (Utf8.encode expectedMagic).length < 2 ^ 63 := by decide

theorem code_ofProgram (memSize : Int64) (code : List Instruction) :
    (ofProgram memSize code).code = some (code.map StoredInstruction.ofInstruction) := rfl

section Programs

variable {memSize : Int64} {code : List Instruction} (hops : ∀ i ∈ code, i.op.number ≤ 26)
include hops

theorem instructions_ofProgram : (ofProgram memSize code).instructions = code := by
  change (code.map StoredInstruction.ofInstruction).map StoredInstruction.toInstruction = code
  rw [List.map_map]
  refine (List.map_congr_left fun i hi => ?_).trans (List.map_id code)
  exact StoredInstruction.toInstruction_ofInstruction (hops i hi)

variable (hargs : ∀ i ∈ code, i.Fits)
include hargs

theorem fits_stored : ∀ s ∈ code.map StoredInstruction.ofInstruction, s.Fits :=
  List.forall_mem_map.mpr fun i hi =>
    StoredInstruction.fits_ofInstruction (hops i hi) (hargs i hi)

theorem encodes_stored : List.Forall₂ (Encodes 2)
    ((code.map StoredInstruction.ofInstruction).map StoredInstruction.write)
    ((code.map StoredInstruction.ofInstruction).map StoredInstruction.item) :=
  forall₂_map fun s hs => StoredInstruction.encodes_item (fits_stored hops hargs s hs)

theorem check_ofProgram : (ofProgram memSize code).check = .ok (ofProgram memSize code) := by
  have hsize : oversized? 0 (ofProgram memSize code).stored = none :=
    oversized?_eq_none (fun s hs => (fits_stored hops hargs s hs).count) 0
  rw [check, if_neg (by simp [ofProgram]), if_neg (by simp [ofProgram]), hsize]

/-- **An image whose program is not too long is read back.** -/
theorem read_write_ofProgram (hlen : code.length ≤ maxElements) :
    Image.read (ofProgram memSize code).write = .ok (ofProgram memSize code) := by
  obtain ⟨fuel, hfuel, hread⟩ := read_write_iff magic_fits (code_ofProgram memSize code)
  have harray := (encodes_array (encodes_stored hops hargs) (by simpa using hlen)).reads []
    (show 1 + (2 + 1) ≤ maxDepth by decide) hfuel
  rw [List.append_nil] at harray
  rw [Image.read, (hread _).mpr ⟨_, harray, rfl⟩]
  have hcode : readInstructions _ = .ok (ofProgram memSize code).code := readInstructions_array _
  simp only [imageOfItem_entries hcode, check_ofProgram hops hargs]

/-- **An image whose program is too long is refused.** -/
theorem read_write_ne_ok (hlong : maxElements < code.length) (image : Image) :
    Image.read (ofProgram memSize code).write ≠ .ok image := by
  obtain ⟨fuel, hfuel, hread⟩ := read_write_iff magic_fits (code_ofProgram memSize code)
  intro hok
  unfold Image.read at hok
  split at hok
  · cases hok
  · next item hitem =>
    obtain ⟨value, hvalue, -⟩ := (hread item).mp hitem
    exact readItem_array_ne_ok (encodes_stored hops hargs) (by simpa using hlong)
      (show 1 + 1 + 2 ≤ maxDepth by decide) hfuel value hvalue

end Programs

end Image

/-- **An image survives being stored exactly if its program has at most 131072 instructions**, and
then its size and its program come back. -/
theorem image_roundtrip {memSize : Int64} {code : List Instruction}
    (hops : ∀ i ∈ code, i.op.number ≤ Opcode.halt.number) (hargs : ∀ i ∈ code, i.Fits) :
    ((∃ image, Image.read (Image.ofProgram memSize code).write = .ok image) ↔
      code.length ≤ 131072) ∧
    ∀ image, Image.read (Image.ofProgram memSize code).write = .ok image →
      image.memSize = memSize ∧ image.instructions = code := by
  have hshort : ∀ image, Image.read (Image.ofProgram memSize code).write = .ok image →
      code.length ≤ 131072 :=
    fun image hread => Nat.not_lt.mp fun hlong =>
      Image.read_write_ne_ok hops hargs hlong image hread
  refine ⟨⟨fun ⟨image, hread⟩ => hshort image hread, fun hlen => ?_⟩, fun image hread => ?_⟩
  · exact ⟨_, Image.read_write_ofProgram hops hargs hlen⟩
  · rw [Image.read_write_ofProgram hops hargs (hshort image hread)] at hread
    obtain rfl := Except.ok.inj hread
    exact ⟨rfl, Image.instructions_ofProgram hops⟩

/-- An instruction that is never executed, with an empty operand before another one. -/
def gapped : Instruction :=
  { arg2 := "é", offset := -0x8000000000000000 }

/-- The limit is met exactly. -/
theorem image_roundtrip_limit :
    gapped.op.number ≤ Opcode.halt.number ∧ gapped.Fits ∧
      (∃ image, Image.read (Image.ofProgram (-1) (List.replicate 131072 gapped)).write = .ok image ∧
        image.memSize = -1 ∧ image.instructions = List.replicate 131072 gapped) ∧
      ¬ ∃ image, Image.read (Image.ofProgram (-1) (List.replicate 131073 gapped)).write =
        .ok image := by
  have hop : gapped.op.number ≤ Opcode.halt.number := by decide
  have hargs : gapped.Fits := by decide
  have hops' : ∀ n, ∀ i ∈ List.replicate n gapped, i.op.number ≤ Opcode.halt.number :=
    fun n i hi => List.eq_of_mem_replicate hi ▸ hop
  have hargs' : ∀ n, ∀ i ∈ List.replicate n gapped, i.Fits :=
    fun n i hi => List.eq_of_mem_replicate hi ▸ hargs
  refine ⟨hop, hargs, ?_, fun hread => ?_⟩
  · obtain ⟨image, hread⟩ := (image_roundtrip (hops' 131072) (hargs' 131072)).1.mpr
      (Nat.le_of_eq List.length_replicate)
    exact ⟨image, hread, (image_roundtrip (hops' 131072) (hargs' 131072)).2 image hread⟩
  · have hlen := (image_roundtrip (hops' 131073) (hargs' 131073)).1.mp hread
    rw [List.length_replicate] at hlen
    omega

end RegisterMachine
