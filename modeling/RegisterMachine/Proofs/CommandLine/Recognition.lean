import RegisterMachine.CommandLine.Program
import RegisterMachine.Proofs.Assembly.Canonical
import RegisterMachine.Proofs.Assembly.Tiling
import RegisterMachine.Proofs.Image.Roundtrip

/-!
# Texts and images told apart

A program file is taken for an image if one of its first ten bytes is not plain. In assembly text
only a comment can hold such a byte. A text that is mistaken for an image is always refused: it
starts with an ASCII character, and such a byte starts a number or a string, which is no image.
-/

set_option autoImplicit false

namespace RegisterMachine

open Assembly Cbor Checks
open Utf8 (Plain encodeChars)

/-! ### Bytes of images -/

section Kinds

variable {initial : UInt8} {bytes rest : List UInt8}

theorem Cbor.readHead_kind {head : Head} (h : readHead (initial :: bytes) = .ok (head, rest)) :
    head.kind = Kind.ofInitial initial := by
  unfold readHead at h
  dsimp only at h
  repeat' split at h
  all_goals cases h <;> rfl

/-- The first byte of an item tells its kind. -/
theorem Cbor.readItem_kind {fuel depth : Nat} {tagged : Bool} {item : Item}
    (h : readItem fuel depth tagged (initial :: bytes) = .ok (item, rest)) :
    item.kind = Kind.ofInitial initial := by
  cases fuel with
  | zero =>
    rw [readItem] at h
    cases h
  | succ fuel =>
    rw [readItem] at h
    split at h
    · cases h
    · next head behind hhead =>
      rw [← readHead_kind hhead]
      split at h
      all_goals
        try dsimp only at h
        repeat' split at h
      all_goals
        cases h <;> simp [Item.kind, stringItem, collectionItem, *]

end Kinds

/-- Neither a number nor a string nor an array is an image. -/
theorem imageOfItem_kind {item : Item} {image : Image} (h : imageOfItem item = .ok image) :
    item.kind = .map ∨ item.kind = .tag ∨ item.kind = .primitive := by
  simp only [imageOfItem, offered] at h
  cases item with
  | unsigned n => simp [withoutTags, offer, offerNat, ok_bind, pure_eq, throw_eq] at h
  | negative n =>
    simp only [withoutTags, offer, ok_bind] at h
    split at h <;> simp [ok_bind, error_bind, pure_eq, throw_eq] at h
  | bytes content => cases h
  | text chunks =>
    simp only [withoutTags, offer, ok_bind] at h
    cases ht : textOfChunks chunks <;>
      simp [ht, ok_bind, error_bind, pure_eq, throw_eq] at h
  | array items => cases h
  | map entries => exact .inl rfl
  | tag number content => exact .inr (.inl rfl)
  | simple n => exact .inr (.inr rfl)
  | float bits => exact .inr (.inr rfl)

theorem Cbor.Kind.ofInitial_ascii {b : UInt8} (h : b.toNat < 128) :
    Kind.ofInitial b ≠ .map ∧ Kind.ofInitial b ≠ .tag ∧ Kind.ofInitial b ≠ .primitive := by
  have hdiv : b.toNat / 32 < 4 := by omega
  unfold Kind.ofInitial
  match b.toNat / 32, hdiv with
  | 0, _ | 1, _ | 2, _ | 3, _ => simp

/-- **No image starts with an ASCII character.** -/
theorem Image.read_ascii {b : UInt8} (h : b.toNat < 128) (rest : List UInt8) :
    ∃ e, Image.read (b :: rest) = .error e := by
  unfold Image.read
  split
  · exact ⟨_, rfl⟩
  · next item hitem =>
    split
    · exact ⟨_, rfl⟩
    · next image himage =>
      have hkind := imageOfItem_kind himage
      rw [readItem_kind (Cbor.read_eq_ok.mp hitem).2] at hkind
      obtain ⟨hmap, htag, hprimitive⟩ := Kind.ofInitial_ascii h
      exact absurd hkind (by simp [hmap, htag, hprimitive])

/-! ### Bytes of texts -/

theorem exists_mem_take_iff {bytes : List UInt8} {count : Nat} {p : UInt8 → Prop} :
    (∃ b ∈ bytes.take count, p b) ↔ ∃ n < count, ∃ b, bytes[n]? = some b ∧ p b := by
  simp only [List.mem_iff_getElem?, List.getElem?_take]
  constructor
  · rintro ⟨b, ⟨n, hn⟩, hb⟩
    split at hn
    · next hlt => exact ⟨n, hlt, b, hn, hb⟩
    · cases hn
  · rintro ⟨n, hlt, b, hn, hb⟩
    exact ⟨b, ⟨n, by rwa [if_pos hlt]⟩, hb⟩

theorem Image.isLikely_iff {bytes : List UInt8} :
    Image.isLikely bytes = true ↔ ∃ b ∈ bytes.take 10, ¬ Plain b.toNat := by
  have hplain : ∀ b : UInt8, (!(b == 0x0A || b == 0x0D || b == 0x09 || (0x20 ≤ b && b ≤ 0x7E))) =
      true ↔ ¬ Plain b.toNat := by
    intro b
    simp only [Bool.not_eq_true', Bool.eq_false_iff, ne_eq, not_iff_not, Plain, Bool.or_eq_true,
      Bool.and_eq_true, beq_iff_eq, decide_eq_true_eq, UInt8.le_iff_toNat_le, ← UInt8.toNat_inj,
      or_assoc]
    rfl
  simp only [Image.isLikely, List.any_eq_true, hplain]

theorem tokens_of_assemble {source : String} {code : List Instruction}
    (h : assemble source = .ok code) : ∃ ts, tokens source = .ok ts := by
  obtain ⟨lines, hlines, -⟩ := assemble_eq_ok.mp h
  unfold parse at hlines
  split at hlines
  · cases hlines
  · next ts hts => exact ⟨ts, hts⟩

/-- Only a line end is added to a text. -/
theorem terminated_eq (source : String) :
    ∃ added, terminated source = source.toList ++ added ∧ ∀ c ∈ added, Plain c.toNat := by
  unfold terminated
  split
  · exact ⟨[], (List.append_nil _).symm, nofun⟩
  · exact ⟨['\n'], rfl, List.forall_mem_singleton.mpr (.inl rfl)⟩

/-- Where a comment of the text reaches into the first ten bytes, it is plain. -/
def PlainComments (source : String) : Prop :=
  ∀ t ∈ (tokens source).toOption.getD [], t.kind = .comment →
    ∀ b ∈ (Utf8.encode t.text).take (10 - t.position.offset), Plain b.toNat

instance (source : String) : Decidable (PlainComments source) :=
  inferInstanceAs (Decidable (∀ t ∈ _, _))

/-- **A text is taken for an image exactly if one of its comments is the reason.** -/
theorem isLikely_text_iff {source : String} {ts : List Token} (h : tokens source = .ok ts) :
    Image.isLikely (Utf8.encode source) = true ↔ ¬ PlainComments source := by
  have tiles := tiles_of_scan h
  obtain ⟨added, hadded, hplain⟩ := terminated_eq source
  rw [hadded] at tiles
  have hodd : ¬ PlainComments source ↔ ∃ t ∈ ts, t.kind = .comment ∧
      ∃ b ∈ (Utf8.encode t.text).take (10 - t.position.offset), ¬ Plain b.toNat := by
    simp only [PlainComments, h, Except.toOption, Option.getD_some, not_forall, exists_prop]
  rw [Image.isLikely_iff, hodd, Utf8.encode_eq]
  simp only [exists_mem_take_iff]
  constructor
  · rintro ⟨n, hn, b, hb, hodd⟩
    have hbyte : (encodeChars (source.toList ++ added))[n]? = some b := by
      obtain ⟨hlt, -⟩ := List.getElem?_eq_some_iff.mp hb
      rwa [Utf8.encodeChars_append, List.getElem?_append_left hlt]
    obtain ⟨t, ht, k, hk, hoffset⟩ := tiles.exists_token hbyte
    have hkind : t.kind = .comment := by
      by_contra hother
      exact hodd (tiles.plain ht hother (List.mem_of_getElem? hk))
    have hplace : t.position.offset + k = n := by simpa using hoffset
    exact ⟨t, ht, hkind, k, by omega, b, hk, hodd⟩
  · rintro ⟨t, ht, -, k, hk, b, hb, hodd⟩
    obtain ⟨n, hbyte, hoffset⟩ := tiles.exists_byte ht hb
    have hplace : t.position.offset + k = n := by simpa using hoffset
    refine ⟨n, by omega, b, ?_, hodd⟩
    rw [Utf8.encodeChars_append, List.getElem?_append] at hbyte
    split at hbyte
    · exact hbyte
    · exact absurd (Utf8.plain_of_mem_encodeChars hplain (List.mem_of_getElem? hbyte)) hodd

/-- The first byte of a text that assembles is ASCII, whatever bytes follow. -/
theorem ascii_of_assemble {b : UInt8} {rest : List UInt8} {code : List Instruction}
    (h : assemble (Utf8.readable (b :: rest)) = .ok code) : b.toNat < 128 := by
  obtain ⟨c, cs, hchars, hfirst⟩ := Utf8.readable_cons b rest
  obtain ⟨ts, hts⟩ := tokens_of_assemble h
  obtain ⟨added, hadded, -⟩ := terminated_eq (Utf8.readable (b :: rest))
  have hplain := (tiles_of_scan hts).plain_head
  rw [hadded, hchars] at hplain
  have hc : c.toNat < 128 := (hplain c rfl).lt
  rw [hfirst hc, UInt8.toNat_ofNat']
  exact Nat.lt_of_le_of_lt (Nat.mod_le _ _) hc

/-! ### Program files -/

namespace CommandLine

theorem Program.load_eq {t : Tree} {path : String} {bytes : List UInt8}
    (h : t.readFile path = .ok bytes) : Program.load t path = Program.ofBytes path bytes := by
  rw [Program.load, h]

section Loading

variable {path : String} {bytes : List UInt8} {code : List Instruction}
  (h : assemble (Utf8.readable bytes) = .ok code)
include h

theorem Program.ofBytes_text (hlikely : Image.isLikely bytes = false) :
    Program.ofBytes path bytes = .ok { code } := by
  simp only [Program.ofBytes, hlikely, Bool.false_eq_true, if_false, h]

/-- A text that is taken for an image is refused. -/
theorem Program.ofBytes_mistaken (hlikely : Image.isLikely bytes = true) :
    ∃ e, Program.ofBytes path bytes = .error (.image path e) := by
  cases bytes with
  | nil => cases hlikely
  | cons b rest =>
    obtain ⟨e, he⟩ := Image.read_ascii (ascii_of_assemble h) rest
    exact ⟨e, by simp only [Program.ofBytes, hlikely, if_true, he]⟩

end Loading

/-- **Assembly text is told from an image exactly if its comments are plain among its first ten
bytes.** It is then loaded as what it assembles to, and otherwise refused as an image. -/
theorem assembly_recognised {source : String} {code : List Instruction}
    (h : assemble source = .ok code) :
    ((Image.isLikely (Utf8.encode source) = false ∧
        ∀ t path, Tree.readFile t path = .ok (Utf8.encode source) →
          Program.load t path = .ok { code }) ↔ PlainComments source) ∧
      (¬ PlainComments source →
        ∀ t path, Tree.readFile t path = .ok (Utf8.encode source) →
          ∃ e, Program.load t path = .error (.image path e)) := by
  obtain ⟨ts, hts⟩ := tokens_of_assemble h
  have hlikely := isLikely_text_iff hts
  have hreadable : assemble (Utf8.readable (Utf8.encode source)) = .ok code := by
    rwa [Utf8.readable_encode]
  refine ⟨⟨fun ⟨hfalse, _⟩ => ?_, fun hplain => ?_⟩, fun hodd t path hread => ?_⟩
  · by_contra hodd
    rw [hlikely.mpr hodd] at hfalse
    cases hfalse
  · have hfalse : Image.isLikely (Utf8.encode source) = false :=
      Bool.eq_false_iff.mpr fun htrue => hlikely.mp htrue hplain
    refine ⟨hfalse, fun t path hread => ?_⟩
    rw [Program.load_eq hread, Program.ofBytes_text hreadable hfalse]
  · rw [Program.load_eq hread]
    exact Program.ofBytes_mistaken hreadable (hlikely.mpr hodd)

/-- A comment that starts at the tenth byte and goes on with a character that is not ASCII. -/
def lateComment : String :=
  "halt     ;é"

theorem assembly_recognised_late :
    assemble lateComment = .ok [{ op := .halt }] ∧ PlainComments lateComment ∧
      Image.isLikely (Utf8.encode lateComment) = false ∧
      ∀ t path, Tree.readFile t path = .ok (Utf8.encode lateComment) →
        Program.load t path = .ok { code := [{ op := .halt }] } := by
  have h : assemble lateComment = .ok [{ op := .halt }] := by decide +kernel
  have hplain : PlainComments lateComment := by decide +kernel
  exact ⟨h, hplain, (assembly_recognised h).1.mpr hplain⟩

/-- The same comment in front of the statement. -/
def earlyComment : String :=
  "; é\nhalt\n"

/-- **A program that assembles but is not loaded.** -/
theorem assembly_mistaken :
    assemble earlyComment = .ok [{ op := .halt }] ∧
      Image.isLikely (Utf8.encode earlyComment) = true ∧
      Program.load { nodes := [(["p.svm"], .file (Utf8.encode earlyComment))] } "p.svm" =
        .error (.image "p.svm" (.malformed (.extraneous 1 9))) := by
  have hlikely : Image.isLikely (Utf8.encode earlyComment) = true := by decide +kernel
  have hread : Image.read (Utf8.encode earlyComment) = .error (.malformed (.extraneous 1 9)) := by
    decide +kernel
  have hfile : Tree.readFile { nodes := [(["p.svm"], .file (Utf8.encode earlyComment))] } "p.svm" =
      .ok (Utf8.encode earlyComment) := by decide +kernel
  refine ⟨by decide +kernel, hlikely, ?_⟩
  simp only [Program.load_eq hfile, Program.ofBytes, hlikely, if_true, hread]

end CommandLine

end RegisterMachine
