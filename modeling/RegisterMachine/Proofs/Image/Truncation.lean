import RegisterMachine.Image.File
import RegisterMachine.Proofs.Cbor.Framing

/-!
# Cut and padded images

An image that is cut short or followed by other bytes is never loaded. For bytes that are an image
the error says so: they end too early, or there are bytes behind the end. An image that is written
need not be one that is read, if its texts or its program are not fit for that, but its bytes mark
their end all the same.
-/

set_option autoImplicit false

namespace RegisterMachine

open Cbor Checks

/-- The bytes are no image for this reason, and a file of them is reported with its path. -/
structure Image.Refused (bytes : List UInt8) (e : ImageError) : Prop where
  read : Image.read bytes = .error e
  fetch (t : Tree) (path : String) (stored : t.readFile path = .ok bytes) :
    Image.fetch t path = .error (.image path e)

namespace Image

theorem refused_of_read {bytes : List UInt8} {e : ImageError} (h : Image.read bytes = .error e) :
    Refused bytes e where
  read := h
  fetch t path stored := by simp only [Image.fetch, stored, h]

theorem refused_of_malformed {bytes : List UInt8} {e : Malformed} (h : Cbor.read bytes = .error e) :
    Refused bytes (.malformed e) :=
  refused_of_read (by rw [Image.read, h])

theorem exists_refused {bytes : List UInt8} (h : ∀ item, Cbor.read bytes ≠ .ok item) :
    ∃ e, Refused bytes e := by
  cases hread : Cbor.read bytes with
  | error e => exact ⟨_, refused_of_malformed hread⟩
  | ok item => exact absurd hread (h item)

theorem exists_item {bytes : List UInt8} {image : Image} (h : Image.read bytes = .ok image) :
    ∃ item, Cbor.read bytes = .ok item := by
  unfold Image.read at h
  split at h
  · cases h
  · next item hitem => exact ⟨item, hitem⟩

end Image

/-! ### Written images -/

/-- The lengths of the texts and of the operand list are 64-bit integers, like all lengths. -/
structure StoredInstruction.Sized (s : StoredInstruction) : Prop where
  op : (Utf8.encode s.op).length < 2 ^ 63
  args : ∀ arg ∈ s.args, (Utf8.encode arg).length < 2 ^ 63
  count : s.args.length < 2 ^ 63

structure Image.Sized (image : Image) : Prop where
  magic : (Utf8.encode image.magic).length < 2 ^ 63
  count : image.stored.length < 2 ^ 63
  each : ∀ s ∈ image.stored, s.Sized

theorem StoredInstruction.framed_write (s : StoredInstruction) (h : s.Sized) : Framed s.write := by
  have hargs : Framed (writeArray (s.args.map writeString)) := by
    refine .array ?_ (List.forall_mem_map.mpr fun arg harg => .text (h.args arg harg))
    have hcount := h.count
    rw [List.length_map]
    omega
  refine .record ?_ ?_
  · unfold fields
    repeat' split
    all_goals simp
  · unfold fields
    simp only [List.forall_mem_append, List.forall_mem_singleton]
    refine ⟨⟨.text h.op, ?_⟩, ?_⟩
    · split
      · nofun
      · exact List.forall_mem_singleton.mpr hargs
    · split
      · nofun
      · exact List.forall_mem_singleton.mpr (.integer s.offset)

namespace Image

/-- **The bytes of an image mark their end**, whether or not they can be read. -/
theorem framed_write {image : Image} (h : image.Sized) : Framed image.write := by
  have hcode : Framed (writeCode image.code) := by
    have hcount := h.count
    have heach := h.each
    unfold stored at hcount heach
    cases hcode : image.code with
    | none => exact .null
    | some code =>
      rw [hcode, Option.getD_some] at hcount heach
      refine .array ?_ (List.forall_mem_map.mpr fun s hs => s.framed_write (heach s hs))
      rw [List.length_map]
      omega
  refine .record (show 4 < 2 ^ 64 by decide) ?_
  simp only [List.forall_mem_cons]
  exact ⟨.text h.magic, .integer _, .integer _, hcode, nofun⟩

end Image

/-- A framed item with other bytes behind it is not read. -/
theorem Cbor.Framed.read_append_ne_ok {bytes tail : List UInt8} (h : Framed bytes)
    (htail : tail ≠ []) (item : Item) : Cbor.read (bytes ++ tail) ≠ .ok item := by
  intro hread
  exact htail (h.ends (Cbor.read_eq_ok.mp hread).2).symm

/-- A framed item without its end is not read. -/
theorem Cbor.Framed.read_front_ne_ok {front tail : List UInt8} (h : Framed (front ++ tail))
    (htail : tail ≠ []) (item : Item) : Cbor.read front ≠ .ok item := by
  intro hread
  have hwhole := continues_readItem front tail (Nat.le_refl front.length)
  rw [(Cbor.read_eq_ok.mp hread).2] at hwhole
  have hitem := hwhole.of_ok
  rw [← List.append_nil (front ++ tail)] at hitem
  exact htail (List.append_eq_nil_iff.mp (h.ends hitem)).2

/-- **Images are prefix-free.** If bytes are an image, then they are none with anything behind them
and none without their end, and the error tells which. No file of a written image loads that is cut
short or padded, whether or not the image itself can be read. -/
theorem images_prefixFree {tail : List UInt8} (htail : tail ≠ []) :
    (∀ bytes image, Image.read bytes = .ok image →
      Image.Refused (bytes ++ tail) (.malformed (.extraneous tail.length bytes.length)) ∧
      ∀ front, front ++ tail = bytes →
        Image.Refused front (.malformed (if front = [] then .empty else .truncated))) ∧
    ∀ image : Image, image.Sized →
      (∃ e, Image.Refused (image.write ++ tail) e) ∧
      ∀ front, front ++ tail = image.write → ∃ e, Image.Refused front e := by
  refine ⟨fun bytes image accepted => ?_, fun image sized => ?_⟩
  · obtain ⟨item, hitem⟩ := Image.exists_item accepted
    refine ⟨Image.refused_of_malformed (read_append hitem htail), ?_⟩
    rintro front rfl
    exact Image.refused_of_malformed (read_front hitem htail)
  · have hframed := Image.framed_write sized
    refine ⟨Image.exists_refused (hframed.read_append_ne_ok htail), fun front hfront => ?_⟩
    rw [← hfront] at hframed
    exact Image.exists_refused (hframed.read_front_ne_ok htail)

/-- A program of one instruction, with a map and an array that end with a break. -/
def openEndedBytes : List UInt8 :=
  [0xBF, 0x01, 0x64, 0x53, 0x56, 0x4D, 0x42, 0x02, 0x01, 0x04, 0x9F, 0xA1, 0x01, 0x64, 0x68, 0x61,
    0x6C, 0x74, 0xFF, 0xFF]

/-- The last break is missing, or there is one more; and an image with no magic is cut before its
program. -/
theorem images_prefixFree_openEnded :
    (∃ image, Image.read openEndedBytes = .ok image) ∧
      Image.Refused (openEndedBytes ++ [0xFF]) (.malformed (.extraneous 1 20)) ∧
      Image.Refused openEndedBytes.dropLast (.malformed .truncated) ∧
      Image.Sized {} ∧ ∃ e, Image.Refused (Image.write {}).dropLast e := by
  have hcode : Image.read openEndedBytes = .ok
      { magic := "SVMB", version := 1, code := some [{ op := "halt" }] } :=
    toOption_eq_some.mp (by decide +kernel)
  have sized : Image.Sized {} := ⟨by decide, by decide, nofun⟩
  have hbreak := (@images_prefixFree [0xFF] (by decide)).1 openEndedBytes _ hcode
  have hnull := (@images_prefixFree [0xF6] (by decide)).2 {} sized
  exact ⟨⟨_, hcode⟩, hbreak.1, hbreak.2 openEndedBytes.dropLast rfl, sized,
    hnull.2 _ (by decide +kernel)⟩

end RegisterMachine
