import RegisterMachine.Proofs.CommandLine.Recognition
import RegisterMachine.Proofs.Image.Normalization
import RegisterMachine.Proofs.Image.Truncation

/-!
# Loading images

The file type is told from the first bytes alone, before anything is decoded. What can be decoded as
an image is a map with any number of tags around it, in whatever encoding: null would leave the
magic empty, and all other items are refused. So the first byte is the head of a map or of a tag,
which is no character of a text, and the program that is loaded is the one that was decoded.
-/

set_option autoImplicit false

namespace RegisterMachine

open Cbor Checks
open Utf8 (Plain)

/-- The item is the map of these entries, with any number of tags around it. -/
inductive Cbor.Item.Wraps (entries : List (Item × Item)) : Item → Prop
  | map : Wraps entries (.map entries)
  | tag {number : Nat} {content : Item} (inner : Wraps entries content) :
      Wraps entries (.tag number content)

section Items

variable {item bare : Item} {entries : List (Item × Item)}

theorem Cbor.Item.Wraps.kind_eq (h : item.Wraps entries) :
    item.kind = .map ∨ item.kind = .tag := by
  cases h with
  | map => exact .inl rfl
  | tag => exact .inr rfl

/-- A map stays inside when the tags are put back. -/
theorem Cbor.Item.Wraps.of_withoutTags (h : withoutTags item = .ok bare)
    (inside : bare.Wraps entries) : item.Wraps entries := by
  fun_induction withoutTags item with
  | case1 content ih => exact .tag (ih h)
  | case2 number content hnumber ih =>
    obtain ⟨-, -, h⟩ := bind_eq_ok.mp h
    split at h
    · obtain rfl := Except.ok.inj h
      exact inside
    · exact .tag (ih h)
  | case3 item hitem =>
    obtain rfl := Except.ok.inj h
    exact inside

/-- Numbers, whether big or not, offer no record. -/
theorem offerNat_ne_record {kind : Kind} {target : Target} {n : Nat} :
    offerNat kind target n ≠ .ok (.record entries) := by
  unfold offerNat
  split <;> simp

theorem offerBig_ne_record {target : Target} {n : Int} :
    offerBig target n ≠ .ok (.record entries) := by
  unfold offerBig
  split
  · simp
  · split
    · exact offerNat_ne_record
    · split <;> simp

/-- Only a map offers a record. -/
theorem offer_eq_record {target : Target} (h : offer target item = .ok (.record entries)) :
    item = .map entries := by
  unfold offer at h
  split at h
  · exact absurd h offerNat_ne_record
  · split at h <;> cases h
  · cases h
  · obtain ⟨_, -, h⟩ := bind_eq_ok.mp h
    cases h
  · split at h <;> cases h
  · cases h
    rfl
  · exact absurd h offerBig_ne_record
  · exact absurd h offerBig_ne_record
  · cases h
  · split at h
    · cases h
    · split at h
      · cases h
      · exact absurd h offerNat_ne_record
  · cases h

/-- **An image is nothing at all, or a map with tags around it.** -/
theorem imageOfItem_eq_ok {image : Image} (h : imageOfItem item = .ok image) :
    image = {} ∨
      ∃ entries, item.Wraps entries ∧ fillRecord 4 fillImage entries [] {} = .ok image := by
  obtain ⟨⟨kind, o⟩, offers, h⟩ := bind_eq_ok.mp h
  obtain ⟨bare, hbare, offers⟩ := bind_eq_ok.mp offers
  obtain ⟨o', ho, offers⟩ := bind_eq_ok.mp offers
  obtain ⟨-, rfl⟩ := Prod.mk.inj (Except.ok.inj offers)
  cases o' with
  | nothing => exact .inl (Except.ok.inj h).symm
  | record entries =>
    obtain rfl := offer_eq_record ho
    exact .inr ⟨entries, .of_withoutTags hbare .map, h⟩
  | integer | text | list => cases h

end Items

theorem Cbor.Kind.ofInitial_wrapper {b : UInt8}
    (h : Kind.ofInitial b = .map ∨ Kind.ofInitial b = .tag) : 160 ≤ b.toNat ∧ b.toNat < 224 := by
  unfold Kind.ofInitial at h
  split at h <;> simp only [reduceCtorEq, or_self, or_true, true_or] at h <;> omega

namespace Image

variable {bytes : List UInt8} {image : Image}

/-- **What is decoded as an image comes from the entries of a map.** -/
theorem exists_wraps (h : Image.read bytes = .ok image) :
    ∃ item entries, Cbor.read bytes = .ok item ∧ item.Wraps entries ∧
      fillRecord 4 fillImage entries [] {} = .ok image := by
  obtain ⟨item, hitem⟩ := exists_item h
  simp only [Image.read, hitem] at h
  split at h
  · cases h
  · next found hfound =>
    obtain ⟨rfl, hmagic, -⟩ := check_eq_ok h
    rcases imageOfItem_eq_ok hfound with rfl | ⟨entries, wraps, filled⟩
    · exact absurd hmagic (by decide)
    · exact ⟨item, entries, hitem, wraps, filled⟩

/-- An image starts with the head of a map or of a tag. -/
theorem exists_head (h : Image.read bytes = .ok image) :
    ∃ b rest, bytes = b :: rest ∧ 160 ≤ b.toNat ∧ b.toNat < 224 := by
  obtain ⟨item, entries, hitem, wraps, -⟩ := exists_wraps h
  obtain ⟨hne, hread⟩ := Cbor.read_eq_ok.mp hitem
  obtain ⟨b, rest, rfl⟩ := List.exists_cons_of_ne_nil hne
  refine ⟨b, rest, rfl, Kind.ofInitial_wrapper ?_⟩
  rw [← readItem_kind hread]
  exact wraps.kind_eq

theorem isLikely_of_read (h : Image.read bytes = .ok image) : Image.isLikely bytes = true := by
  obtain ⟨b, rest, rfl, hlow, -⟩ := exists_head h
  refine isLikely_iff.mpr ⟨b, List.mem_cons_self, fun plain => ?_⟩
  have := plain.lt
  omega

end Image

namespace CommandLine

/-- **Every image that can be decoded is recognised and loaded.** The file then gives the size and
the instructions of the image, as it does when it is read as an image file. -/
theorem images_recognised {bytes : List UInt8} {image : Image}
    (h : Image.read bytes = .ok image) :
    Image.isLikely bytes = true ∧
      ∀ t path, Tree.readFile t path = .ok bytes →
        Program.load t path = .ok { memSize := image.memSize, code := image.instructions } ∧
        Image.fetch t path = .ok image := by
  have hlikely := Image.isLikely_of_read h
  refine ⟨hlikely, fun t path hfile => ⟨?_, ?_⟩⟩
  · rw [Program.load_eq hfile]
    simp only [Program.ofBytes, hlikely, if_true, h]
  · simp only [Image.fetch, hfile, h]

/-- A self-description and a tag of eight bytes around a map that ends with a break. -/
def wrappedBytes : List UInt8 :=
  [0xD9, 0xD9, 0xF7, 0xDB, 0x00, 0x00, 0x00, 0x00, 0x00, 0x00, 0x00, 0x2A, 0xBF, 0x03, 0x07] ++
    openEndedBytes.drop 1

theorem images_recognised_wrapped :
    ∃ image, Image.read wrappedBytes = .ok image ∧ Image.isLikely wrappedBytes = true ∧
      ∀ t path, Tree.readFile t path = .ok wrappedBytes →
        Program.load t path = .ok { memSize := 7, code := [{ op := .halt }] } ∧
        Image.fetch t path = .ok image := by
  have hread : Image.read wrappedBytes = .ok
      { magic := "SVMB", version := 1, memSize := 7, code := some [{ op := "halt" }] } :=
    toOption_eq_some.mp (by decide +kernel)
  exact ⟨_, hread, images_recognised hread⟩

end CommandLine

end RegisterMachine
