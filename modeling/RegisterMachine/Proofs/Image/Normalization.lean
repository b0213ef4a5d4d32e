import RegisterMachine.Proofs.Cbor.Sizes
import RegisterMachine.Proofs.Image.Roundtrip

/-!
# Images in normal form

Whatever encoding an image is read from, it can be written, and the bytes that are written are read as
the same image. Nothing that is read is too large to be written: texts come from the bytes that were
read, and a program from an array that was not too long.
-/

set_option autoImplicit false

namespace RegisterMachine

open Cbor Checks

/-! ### Values of bounded items -/

/-- What is offered is no larger than what it comes from. -/
def Offer.Bounded (limit : Nat) : Offer → Prop
  | .text s => (Utf8.encode s).length ≤ limit
  | .list items => items.length ≤ maxElements ∧ ∀ item ∈ items, item.Bounded limit
  | .record entries => ∀ entry ∈ entries, entry.2.Bounded limit
  | _ => True

section Values

variable {limit : Nat} {item : Item}

theorem Cbor.Item.Bounded.withoutTags (h : item.Bounded limit) {bare : Item}
    (hbare : RegisterMachine.withoutTags item = .ok bare) : bare.Bounded limit := by
  fun_induction RegisterMachine.withoutTags item generalizing bare with
  | case1 content ih =>
    cases h with | tag hcontent
    exact ih hcontent hbare
  | case2 number content hnumber ih =>
    obtain ⟨-, -, hbare⟩ := bind_eq_ok.mp hbare
    split at hbare
    · obtain rfl := Except.ok.inj hbare
      exact h
    · cases h with | tag hcontent
      exact ih hcontent hbare
  | case3 item hitem =>
    obtain rfl := Except.ok.inj hbare
    exact h

theorem length_encode_append (s t : String) :
    (Utf8.encode (s ++ t)).length = (Utf8.encode s).length + (Utf8.encode t).length := by
  rw [Utf8.encode_eq, Utf8.encode_eq, Utf8.encode_eq, String.toList_append,
    Utf8.encodeChars_append, List.length_append]

theorem length_foldlM_text {chunks : List (List UInt8)} {start s : String}
    (h : chunks.foldlM (fun text chunk =>
      match Utf8.decode? chunk with
      | some s => Except.ok (text ++ s)
      | none => .error ItemError.invalidText) start = .ok s) :
    (Utf8.encode s).length = (Utf8.encode start).length + chunks.flatten.length := by
  induction chunks generalizing start with
  | nil =>
    obtain rfl := Except.ok.inj h
    rfl
  | cons chunk chunks ih =>
    rw [List.foldlM_cons] at h
    obtain ⟨text, htext, h⟩ := bind_eq_ok.mp h
    split at htext
    · next part hpart =>
      obtain rfl := Except.ok.inj htext
      rw [ih h, length_encode_append, Utf8.encode_of_decode? hpart, List.flatten_cons,
        List.length_append, Nat.add_assoc]
    · cases htext

/-- A text has the bytes of its chunks. -/
theorem length_textOfChunks {chunks : List (List UInt8)} {s : String}
    (h : textOfChunks chunks = .ok s) : (Utf8.encode s).length = chunks.flatten.length := by
  have hlength := length_foldlM_text h
  rwa [show (Utf8.encode "").length = 0 by decide, Nat.zero_add] at hlength

theorem offerNat_bounded {kind : Kind} {target : Target} {n : Nat} {o : Offer}
    (h : offerNat kind target n = .ok o) : o.Bounded limit := by
  unfold offerNat at h
  split at h
  · cases h
  · obtain rfl := Except.ok.inj h
    trivial

theorem offerBig_bounded {target : Target} {n : Int} {o : Offer}
    (h : offerBig target n = .ok o) : o.Bounded limit := by
  unfold offerBig at h
  split at h
  · cases h
  · split at h
    · exact offerNat_bounded h
    · split at h
      · obtain rfl := Except.ok.inj h
        trivial
      · cases h

theorem offer_bounded {target : Target} {o : Offer} (hitem : item.Bounded limit)
    (h : offer target item = .ok o) : o.Bounded limit := by
  -- The cases are those of the definition, in its order.
  unfold offer at h
  split at h
  · exact offerNat_bounded h
  · split at h
    · cases h
    · obtain rfl := Except.ok.inj h
      trivial
  · cases h
  · cases hitem with | text length
    obtain ⟨s, hs, h⟩ := bind_eq_ok.mp h
    obtain rfl := Except.ok.inj h
    exact Nat.le_trans (Nat.le_of_eq (length_textOfChunks hs)) length
  · cases hitem with | array count each
    split at h
    · cases h
    · obtain rfl := Except.ok.inj h
      exact ⟨count, each⟩
  · cases hitem with | map values
    obtain rfl := Except.ok.inj h
    exact values
  · exact offerBig_bounded h
  · exact offerBig_bounded h
  · cases h
  · split at h
    · cases h
    · split at h
      · obtain rfl := Except.ok.inj h
        trivial
      · exact offerNat_bounded h
  · cases h

theorem offered_bounded {target : Target} {kind : Kind} {o : Offer} (hitem : item.Bounded limit)
    (h : offered target item = .ok (kind, o)) : o.Bounded limit := by
  obtain ⟨bare, hbare, h⟩ := bind_eq_ok.mp h
  obtain ⟨o', ho', h⟩ := bind_eq_ok.mp h
  obtain ⟨-, rfl⟩ := Prod.mk.inj (Except.ok.inj h)
  exact offer_bounded (hitem.withoutTags hbare) ho'

theorem readText_bounded {s : String} (hitem : item.Bounded limit) (h : readText item = .ok s) :
    (Utf8.encode s).length ≤ limit := by
  obtain ⟨⟨kind, o⟩, ho, h⟩ := bind_eq_ok.mp h
  have hbounded := offered_bounded hitem ho
  cases o with
  | nothing =>
    obtain rfl := Except.ok.inj h
    exact Nat.zero_le limit
  | text s =>
    obtain rfl := Except.ok.inj h
    exact hbounded
  | integer | list | record => cases h

theorem readTexts_bounded {ss : List String} (hitem : item.Bounded limit)
    (h : readTexts item = .ok ss) : ∀ s ∈ ss, (Utf8.encode s).length ≤ limit := by
  obtain ⟨⟨kind, o⟩, ho, h⟩ := bind_eq_ok.mp h
  have hbounded := offered_bounded hitem ho
  cases o with
  | nothing =>
    obtain rfl := Except.ok.inj h
    nofun
  | list items => exact (forall_of_mapM (fun _ _ => readText_bounded) hbounded.2 h).2
  | integer | text | record => cases h

end Values

/-! ### Records of bounded items -/

/-- What every field keeps, a record has when it is filled. -/
theorem fillRecord_invariant {α : Type} {limit last : Nat}
    {fill : Nat → Item → α → Except ItemError α} {P : α → Prop}
    (hfill : ∀ {field : Nat} {value : Item} {record record' : α}, value.Bounded limit → P record →
      fill field value record = .ok record' → P record')
    {entries : List (Item × Item)} (hentries : ∀ entry ∈ entries, entry.2.Bounded limit)
    {seen : List Nat} {record record' : α} (hrecord : P record)
    (h : fillRecord last fill entries seen record = .ok record') : P record' := by
  induction entries generalizing seen record with
  | nil =>
    obtain rfl := Except.ok.inj h
    exact hrecord
  | cons entry entries ih =>
    obtain ⟨key, value⟩ := entry
    obtain ⟨hvalue, hothers⟩ := List.forall_mem_cons.mp hentries
    rw [fillRecord] at h
    obtain ⟨field, -, h⟩ := bind_eq_ok.mp h
    cases field with
    | none => exact ih hothers hrecord h
    | some field =>
      dsimp only at h
      split at h
      · exact ih hothers hrecord h
      · obtain ⟨next, hnext, h⟩ := bind_eq_ok.mp h
        exact ih hothers (hfill hvalue hrecord hnext) h

/-- The texts of the instruction are no longer than `limit` bytes. -/
structure StoredInstruction.Bounded (limit : Nat) (s : StoredInstruction) : Prop where
  op : (Utf8.encode s.op).length ≤ limit
  args : ∀ arg ∈ s.args, (Utf8.encode arg).length ≤ limit

/-- The program is no longer than an array may be, and its texts no longer than `limit` bytes. -/
structure Image.Bounded (limit : Nat) (image : Image) : Prop where
  count : image.stored.length ≤ maxElements
  each : ∀ s ∈ image.stored, s.Bounded limit

section Records

variable {limit : Nat} {item : Item}

theorem StoredInstruction.Bounded.empty : StoredInstruction.Bounded limit {} :=
  ⟨Nat.zero_le limit, nofun⟩

theorem fillInstruction_bounded {field : Nat} {s s' : StoredInstruction}
    (hitem : item.Bounded limit) (hs : s.Bounded limit)
    (h : fillInstruction field item s = .ok s') : s'.Bounded limit := by
  unfold fillInstruction at h
  split at h
  · obtain ⟨op, hop, h⟩ := bind_eq_ok.mp h
    obtain rfl := Except.ok.inj h
    exact ⟨readText_bounded hitem hop, hs.args⟩
  · obtain ⟨args, hargs, h⟩ := bind_eq_ok.mp h
    obtain rfl := Except.ok.inj h
    exact ⟨hs.op, readTexts_bounded hitem hargs⟩
  · obtain ⟨offset, -, h⟩ := bind_eq_ok.mp h
    obtain rfl := Except.ok.inj h
    exact ⟨hs.op, hs.args⟩

theorem readInstruction_bounded {s : StoredInstruction} (hitem : item.Bounded limit)
    (h : readInstruction item = .ok s) : s.Bounded limit := by
  obtain ⟨⟨kind, o⟩, ho, h⟩ := bind_eq_ok.mp h
  have hbounded := offered_bounded hitem ho
  cases o with
  | nothing =>
    obtain rfl := Except.ok.inj h
    exact .empty
  | record entries => exact fillRecord_invariant fillInstruction_bounded hbounded .empty h
  | integer | text | list => cases h

theorem readInstructions_bounded {code : Option (List StoredInstruction)}
    (hitem : item.Bounded limit) (h : readInstructions item = .ok code) :
    (code.getD []).length ≤ maxElements ∧ ∀ s ∈ code.getD [], s.Bounded limit := by
  obtain ⟨⟨kind, o⟩, ho, h⟩ := bind_eq_ok.mp h
  have hbounded := offered_bounded hitem ho
  cases o with
  | nothing =>
    obtain rfl := Except.ok.inj h
    exact ⟨Nat.zero_le _, nofun⟩
  | list items =>
    obtain ⟨found, hfound, h⟩ := bind_eq_ok.mp h
    obtain rfl := Except.ok.inj h
    obtain ⟨hlength, heach⟩ :=
      forall_of_mapM (fun _ _ => readInstruction_bounded) hbounded.2 hfound
    exact ⟨hlength ▸ hbounded.1, heach⟩
  | integer | text | record => cases h

theorem fillImage_bounded {field : Nat} {image image' : Image} (hitem : item.Bounded limit)
    (himage : image.Bounded limit) (h : fillImage field item image = .ok image') :
    image'.Bounded limit := by
  unfold fillImage at h
  rw [mapError_eq_ok] at h
  split at h
  · obtain ⟨magic, -, h⟩ := bind_eq_ok.mp h
    obtain rfl := Except.ok.inj h
    exact ⟨himage.count, himage.each⟩
  · obtain ⟨version, -, h⟩ := bind_eq_ok.mp h
    obtain rfl := Except.ok.inj h
    exact ⟨himage.count, himage.each⟩
  · obtain ⟨memSize, -, h⟩ := bind_eq_ok.mp h
    obtain rfl := Except.ok.inj h
    exact ⟨himage.count, himage.each⟩
  · obtain ⟨code, hcode, h⟩ := bind_eq_ok.mp h
    obtain rfl := Except.ok.inj h
    obtain ⟨hcount, heach⟩ := readInstructions_bounded hitem hcode
    exact ⟨hcount, heach⟩

/-- **An image is no larger than the item that it is read from.** -/
theorem imageOfItem_bounded {image : Image} (hitem : item.Bounded limit)
    (h : imageOfItem item = .ok image) : image.Bounded limit := by
  have hempty : Image.Bounded limit {} := ⟨Nat.zero_le _, nofun⟩
  obtain ⟨⟨kind, o⟩, ho, h⟩ := bind_eq_ok.mp h
  have hbounded := offered_bounded hitem ho
  cases o with
  | nothing =>
    obtain rfl := Except.ok.inj h
    exact hempty
  | record entries => exact fillRecord_invariant fillImage_bounded hbounded hempty h
  | integer | text | list => cases h

end Records

/-! ### Writing what was read -/

theorem encodes_null : Encodes 0 writeNull (.simple 22) := by
  refine .of_step (List.cons_ne_nil _ _) fun rest _ _ => ?_
  rw [readItem_succ, readHead_null]
  rfl

theorem Cbor.Encodes.read {height : Nat} {bytes : List UInt8} {item : Item}
    (h : Encodes height bytes item) (hheight : height ≤ maxDepth) : Cbor.read bytes = .ok item := by
  have hread : readItem (fuelFor bytes.length) 0 false (bytes ++ []) = .ok (item, []) :=
    h.reads [] (by omega) (by unfold fuelFor; omega)
  rw [List.append_nil] at hread
  exact Cbor.read_eq_ok.mpr ⟨h.nonempty, hread⟩

theorem StoredInstruction.Bounded.fits {limit : Nat} {s : StoredInstruction} (h : s.Bounded limit)
    (hlimit : limit < 2 ^ 63) (hcount : s.args.length ≤ 3) : s.Fits where
  op := Nat.lt_of_le_of_lt h.op hlimit
  args := fun arg harg => Nat.lt_of_le_of_lt (h.args arg harg) hlimit
  count := hcount

namespace Image

/-- The item of a program. -/
def codeItem : Option (List StoredInstruction) → Item
  | none => .simple 22
  | some code => .array (code.map StoredInstruction.item)

theorem readInstructions_codeItem (code : Option (List StoredInstruction)) :
    readInstructions (codeItem code) = .ok code := by
  cases code with
  | none => rfl
  | some code => exact readInstructions_array code

theorem encodes_code {image : Image} (hcount : image.stored.length ≤ maxElements)
    (hfits : ∀ s ∈ image.stored, s.Fits) : Encodes 3 (writeCode image.code) (codeItem image.code) := by
  unfold stored at hcount hfits
  cases hcode : image.code with
  | none => exact encodes_null.mono (by decide)
  | some code =>
    rw [hcode, Option.getD_some] at hcount hfits
    exact encodes_array (forall₂_map fun s hs => StoredInstruction.encodes_item (hfits s hs))
      (by simpa using hcount)

theorem encodes_image {image : Image} (hmagic : (Utf8.encode image.magic).length < 2 ^ 63)
    (hcount : image.stored.length ≤ maxElements) (hfits : ∀ s ∈ image.stored, s.Fits) :
    Encodes 4 image.write (recordItem (image.frontEntries ++ [(4, codeItem image.code)])) := by
  have hfirst : FieldEncodes 3 (1, writeString image.magic) (1, textItem image.magic) :=
    ⟨rfl, show 1 < 2 ^ 64 by decide, (encodes_text hmagic).mono (by decide)⟩
  have hsecond : FieldEncodes 3 (2, writeInt image.version) (2, integerItem image.version) :=
    ⟨rfl, show 2 < 2 ^ 64 by decide, (encodes_integer _).mono (by decide)⟩
  have hthird : FieldEncodes 3 (3, writeInt image.memSize) (3, integerItem image.memSize) :=
    ⟨rfl, show 3 < 2 ^ 64 by decide, (encodes_integer _).mono (by decide)⟩
  have hfourth : FieldEncodes 3 (4, writeCode image.code) (4, codeItem image.code) :=
    ⟨rfl, show 4 < 2 ^ 64 by decide, encodes_code hcount hfits⟩
  exact encodes_record (.cons hfirst (.cons hsecond (.cons hthird (.cons hfourth .nil))))
    (show 4 ≤ 131072 by decide)

theorem length_args_le_of_oversized? {index : Nat} {code : List StoredInstruction}
    (h : oversized? index code = none) : ∀ s ∈ code, s.args.length ≤ 3 := by
  induction code generalizing index with
  | nil => nofun
  | cons s code ih =>
    rw [oversized?] at h
    split at h
    · cases h
    · next hs => exact List.forall_mem_cons.mpr ⟨Nat.not_lt.mp hs, ih h⟩

theorem check_eq_ok {image found : Image} (h : image.check = .ok found) :
    found = image ∧ image.magic = expectedMagic ∧ ∀ s ∈ image.stored, s.args.length ≤ 3 := by
  unfold check at h
  split at h
  · cases h
  · next hmagic =>
    split at h
    · cases h
    · split at h
      · cases h
      · next hsize =>
        exact ⟨(Except.ok.inj h).symm, not_not.mp hmagic, length_args_le_of_oversized? hsize⟩

/-- **An image that passes the check is read back**, if its texts and its program are not too
long. -/
theorem read_write {image : Image} (hcheck : image.check = .ok image)
    (hcount : image.stored.length ≤ maxElements) (hfits : ∀ s ∈ image.stored, s.Fits) :
    Image.read image.write = .ok image := by
  obtain ⟨-, hmagic, -⟩ := check_eq_ok hcheck
  have hencodes := encodes_image (hmagic ▸ magic_fits) hcount hfits
  rw [Image.read, hencodes.read (by decide)]
  simp only [imageOfItem_entries (readInstructions_codeItem image.code), hcheck]

end Image

/-- No operand is dropped of at most three. -/
theorem StoredInstruction.args_toInstruction {s : StoredInstruction} (h : s.args.length ≤ 3) :
    s.toInstruction.args = s.args ++ List.replicate (3 - s.args.length) "" := by
  obtain ⟨op, args, offset⟩ := s
  match args, h with
  | [], _ | [_], _ | [_, _], _ | [_, _, _], _ => rfl

/-- **Reading normalises.** Whatever bytes an image is read from, the bytes that it is written as
are read as the same image, and its instructions have all the operands that are stored. Like every
length, that of the bytes is a 64-bit integer. -/
theorem decoding_normalises {bytes : List UInt8} {image : Image} (hlength : bytes.length < 2 ^ 63)
    (accepted : Image.read bytes = .ok image) :
    Image.read image.write = .ok image ∧
      ∀ s ∈ image.stored, s.args.length ≤ 3 ∧
        s.toInstruction.args = s.args ++ List.replicate (3 - s.args.length) "" := by
  unfold Image.read at accepted
  split at accepted
  · cases accepted
  · next item hitem =>
    split at accepted
    · cases accepted
    · next found hfound =>
      obtain ⟨rfl, -, hargs⟩ := Image.check_eq_ok accepted
      have hbounded := imageOfItem_bounded (bounded_of_read hitem) hfound
      refine ⟨Image.read_write accepted hbounded.count fun s hs => ?_, fun s hs => ?_⟩
      · exact (hbounded.each s hs).fits hlength (hargs s hs)
      · exact ⟨hargs s hs, StoredInstruction.args_toInstruction (hargs s hs)⟩

/-- A tagged map of indefinite length: the program comes first, under a key that is a text, and has a
mnemonic in two chunks and an instruction that is null. A key is unknown, another is longer than
needed, the version is a big number and the size is null. -/
def variantBytes : List UInt8 :=
  [0xD9, 0xD9, 0xF7, 0xBF, 0x61, 0x34, 0x9F, 0xBF, 0x01, 0x7F, 0x61, 0x6C, 0x61, 0x69, 0xFF, 0x02,
    0x82, 0x63, 0x24, 0x74, 0x31, 0x61, 0x35, 0xFF, 0xF6, 0xFF, 0x18, 0x63, 0x80, 0x19, 0x00, 0x01,
    0x64, 0x53, 0x56, 0x4D, 0x42, 0x02, 0xC2, 0x41, 0x01, 0x03, 0xF6, 0xFF]

theorem decoding_normalises_variant :
    variantBytes.length < 2 ^ 63 ∧ ∃ image, Image.read variantBytes = .ok image ∧
      image.stored = [{ op := "li", args := ["$t1", "5"] }, {}] ∧ image.write ≠ variantBytes ∧
      Image.read image.write = .ok image := by
  have accepted : Image.read variantBytes = .ok
      { magic := "SVMB", version := 1,
        code := some [{ op := "li", args := ["$t1", "5"] }, {}] } :=
    toOption_eq_some.mp (by decide +kernel)
  exact ⟨by decide, _, accepted, rfl, by decide +kernel,
    (decoding_normalises (by decide) accepted).1⟩

end RegisterMachine
