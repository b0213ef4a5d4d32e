import RegisterMachine.Proofs.Cbor.Framing

/-!
# How large items are

An item holds no more text than there are bytes, and no array in it has more elements than the format
allows. This holds of every encoding: of definite and indefinite lengths, of heads of any width and
of items behind tags.
-/

set_option autoImplicit false

namespace RegisterMachine.Cbor

open Checks

/-- No text in the item is longer than `limit` bytes, and no array is too long. The keys of maps do
not matter. -/
inductive Item.Bounded (limit : Nat) : Item → Prop
  | unsigned (n : Nat) : Bounded limit (.unsigned n)
  | negative (n : Nat) : Bounded limit (.negative n)
  | bytes (content : List UInt8) : Bounded limit (.bytes content)
  | text {chunks : List (List UInt8)} (length : chunks.flatten.length ≤ limit) :
      Bounded limit (.text chunks)
  | array {items : List Item} (count : items.length ≤ maxElements)
      (each : ∀ item ∈ items, Bounded limit item) : Bounded limit (.array items)
  | map {entries : List (Item × Item)} (values : ∀ entry ∈ entries, Bounded limit entry.2) :
      Bounded limit (.map entries)
  | tag {number : Nat} {content : Item} (content_bounded : Bounded limit content) :
      Bounded limit (.tag number content)
  | simple (n : Nat) : Bounded limit (.simple n)
  | float (bits : Nat) : Bounded limit (.float bits)

/-! ### What readers yield -/

/-- What is read has the property, and no more than `limit` bytes are left. -/
def Yields {α : Type} (limit : Nat) (P : α → Prop) (r : Except Malformed (α × List UInt8)) : Prop :=
  ∀ a rest, r = .ok (a, rest) → P a ∧ rest.length ≤ limit

namespace Yields

variable {α β : Type} {limit : Nat} {P : α → Prop} {Q : β → Prop}
  {r : Except Malformed (α × List UInt8)}

theorem error (e : Malformed) : Yields limit P (.error e) :=
  nofun

theorem ok {a : α} {rest : List UInt8} (ha : P a) (hrest : rest.length ≤ limit) :
    Yields limit P (.ok (a, rest)) := by
  rintro _ _ ⟨⟩
  exact ⟨ha, hrest⟩

theorem bind (h : Yields limit P r) {f : α × List UInt8 → Except Malformed (β × List UInt8)}
    (hf : ∀ a rest, P a → rest.length ≤ limit → Yields limit Q (f (a, rest))) :
    Yields limit Q (r >>= f) := by
  intro b rest' hb
  obtain ⟨⟨a, rest⟩, hr, hb⟩ := bind_eq_ok.mp hb
  obtain ⟨ha, hrest⟩ := h a rest hr
  exact hf a rest ha hrest b rest' hb

theorem guard {p : Prop} [Decidable p] (e : Malformed) (h : ¬ p → Yields limit P r) :
    Yields limit P (if p then .error e else r) := by
  split
  · exact error e
  · next hp => exact h hp

end Yields

/-! ### Strings -/

section Strings

variable {bytes rest : List UInt8}

theorem length_readHead {head : Head} (h : readHead bytes = .ok (head, rest)) :
    rest.length ≤ bytes.length := by
  cases bytes with
  | nil => cases h
  | cons initial tail =>
    rw [readHead] at h
    dsimp only at h
    split at h
    · obtain ⟨-, rfl⟩ := Prod.mk.inj (Except.ok.inj h)
      exact Nat.le_succ _
    · split at h
      · split at h
        · cases h
        · next hsplit =>
          obtain ⟨rfl, -⟩ := splitBytes?_eq_some.mp hsplit
          split at h
          · cases h
          · obtain ⟨-, rfl⟩ := Prod.mk.inj (Except.ok.inj h)
            simp only [List.length_cons, List.length_append]
            omega
      · split at h
        · split at h
          case h_5 =>
            obtain ⟨-, rfl⟩ := Prod.mk.inj (Except.ok.inj h)
            exact Nat.le_succ _
          all_goals cases h
        · cases h

theorem length_readContent {kind : Kind} {length : Nat} {content : List UInt8}
    (h : readContent kind length bytes = .ok (content, rest)) :
    content.length + rest.length = bytes.length := by
  unfold readContent at h
  split at h
  · cases h
  · split at h
    · cases h
    · next hsplit =>
      obtain rfl := Except.ok.inj h
      obtain ⟨rfl, -⟩ := splitBytes?_eq_some.mp hsplit
      exact List.length_append.symm

theorem length_readChunk {whole : Kind} {chunk : List UInt8}
    (h : readChunk whole bytes = .ok (chunk, rest)) :
    chunk.length + rest.length ≤ bytes.length := by
  cases bytes with
  | nil => cases h
  | cons initial tail =>
    rw [readChunk] at h
    dsimp only at h
    split at h
    · cases h
    · split at h
      · cases h
      · obtain ⟨⟨head, behind⟩, hhead, h⟩ := bind_eq_ok.mp h
        have hbehind := length_readHead hhead
        dsimp only at h
        split at h
        · have hcontent := length_readContent h
          omega
        · cases h

/-- All chunks together are no longer than the bytes. -/
theorem length_readChunks {whole : Kind} {fuel : Nat} {known chunks : List (List UInt8)}
    (h : readChunks whole fuel known bytes = .ok (chunks, rest)) :
    chunks.flatten.length + rest.length ≤ known.flatten.length + bytes.length := by
  induction fuel generalizing known bytes with
  | zero => cases h
  | succ fuel ih =>
    cases bytes with
    | nil => cases h
    | cons byte tail =>
      rw [readChunks_cons] at h
      split at h
      · obtain ⟨rfl, rfl⟩ := Prod.mk.inj (Except.ok.inj h)
        simp only [List.length_flatten, List.map_reverse, List.sum_reverse, List.length_cons]
        omega
      · obtain ⟨⟨chunk, behind⟩, hchunk, h⟩ := bind_eq_ok.mp h
        have hlength := length_readChunk hchunk
        have hothers := ih h
        simp only [List.flatten_cons, List.length_append] at hothers
        omega

theorem yields_readHead {limit : Nat} (hbytes : bytes.length ≤ limit) :
    Yields limit (fun _ => True) (readHead bytes) :=
  fun _ _ h => ⟨trivial, Nat.le_trans (length_readHead h) hbytes⟩

theorem yields_readContent {limit : Nat} (hbytes : bytes.length ≤ limit) (kind : Kind)
    (length : Nat) :
    Yields limit (fun content => content.length ≤ limit) (readContent kind length bytes) := by
  intro content rest h
  have hlength := length_readContent h
  omega

theorem yields_readChunks {limit : Nat} (hbytes : bytes.length ≤ limit) (whole : Kind) (fuel : Nat) :
    Yields limit (fun chunks => chunks.flatten.length ≤ limit) (readChunks whole fuel [] bytes) := by
  intro chunks rest h
  have hlength := length_readChunks h
  simp only [List.flatten_nil, List.length_nil] at hlength
  omega

end Strings

/-! ### Items -/

section Items

variable {limit fuel : Nat}

theorem mem_of_mem_pairUp {items : List Item} {entry : Item × Item} (h : entry ∈ pairUp items) :
    entry.2 ∈ items := by
  fun_induction pairUp items with
  | case1 key value rest ih =>
    rcases List.mem_cons.mp h with rfl | hrest
    · exact List.mem_cons_of_mem _ List.mem_cons_self
    · exact List.mem_cons_of_mem _ (List.mem_cons_of_mem _ (ih hrest))
  | case2 => cases h

/-- The elements of a collection: each is bounded, and those of an array are not too many. -/
structure Elements (limit : Nat) (kind : Kind) (items : List Item) : Prop where
  count : kind ≠ .map → items.length ≤ maxElements
  each : ∀ item ∈ items, item.Bounded limit

theorem Elements.collectionItem {kind : Kind} {items : List Item} (h : Elements limit kind items) :
    (Cbor.collectionItem kind items).Bounded limit := by
  unfold Cbor.collectionItem
  split
  · exact .map fun entry hentry => h.each _ (mem_of_mem_pairUp hentry)
  · next hkind => exact .array (h.count hkind) h.each

theorem length_le_of_overfull? {kind : Kind} {count : Nat} (hkind : kind ≠ .map)
    (h : overfull? kind count = none) : count ≤ maxElements := by
  rw [overfull?, if_neg hkind] at h
  split at h
  · cases h
  · next hcount => exact Nat.not_lt.mp hcount

theorem bounded_stringItem {kind : Kind} {chunks : List (List UInt8)}
    (h : chunks.flatten.length ≤ limit) : (stringItem kind chunks).Bounded limit := by
  unfold stringItem
  split
  · exact .text h
  · exact .bytes _

/-- The three readers that call each other yield bounded items, with this fuel. -/
structure FuelBounded (limit fuel : Nat) : Prop where
  item (depth : Nat) (tagged : Bool) {bytes : List UInt8} (hbytes : bytes.length ≤ limit) :
    Yields limit (Item.Bounded limit) (readItem fuel depth tagged bytes)
  items (depth count : Nat) (known : List Item) (hknown : ∀ item ∈ known, item.Bounded limit)
    {bytes : List UInt8} (hbytes : bytes.length ≤ limit) :
    Yields limit (fun items => items.length = known.length + count ∧
      ∀ item ∈ items, item.Bounded limit) (readItems fuel depth count known bytes)
  untilBreak (depth : Nat) {kind : Kind} (known : List Item) (hknown : Elements limit kind known)
    {bytes : List UInt8} (hbytes : bytes.length ≤ limit) :
    Yields limit (Elements limit kind) (readUntilBreak fuel depth kind known.length known bytes)

namespace FuelBounded

theorem body (h : FuelBounded limit fuel) (depth : Nat) (tagged : Bool) (head : Head)
    {rest : List UInt8} (hrest : rest.length ≤ limit) :
    Yields limit (Item.Bounded limit) (readBody fuel depth tagged head rest) := by
  have hcontent : ∀ length, Yields limit (Item.Bounded limit)
      (readContent head.kind length rest >>= fun p => .ok (stringItem head.kind [p.1], p.2)) :=
    fun length => (yields_readContent hrest head.kind length).bind fun content _ hlength hleft =>
      .ok (bounded_stringItem (by simpa using hlength)) hleft
  have hchunks : Yields limit (Item.Bounded limit)
      (readChunks head.kind fuel [] rest >>= fun p => .ok (stringItem head.kind p.1, p.2)) :=
    (yields_readChunks hrest head.kind fuel).bind fun _ _ hlength hleft =>
      .ok (bounded_stringItem hlength) hleft
  have hcounted : ∀ length, Yields limit (Item.Bounded limit)
      (if depth + 1 > maxDepth then .error .tooDeep
        else elementCount head.kind length >>= fun count =>
          readItems fuel (depth + 1) count [] rest >>= fun p =>
            .ok (collectionItem head.kind p.1, p.2)) := by
    intro length
    refine .guard _ fun _ => ?_
    cases helements : elementCount head.kind length with
    | error e => exact .error e
    | ok count =>
      obtain ⟨hlength, rfl⟩ := elementCount_eq_ok helements
      refine (h.items _ _ [] nofun hrest).bind fun items _ hitems hleft => ?_
      refine .ok (Elements.collectionItem ⟨fun hmap => ?_, hitems.2⟩) hleft
      rw [hitems.1, if_neg hmap, List.length_nil, Nat.zero_add]
      exact hlength
  have hopen : Yields limit (Item.Bounded limit)
      (if depth + 1 > maxDepth then .error .tooDeep
        else readUntilBreak fuel (depth + 1) head.kind 0 [] rest >>= fun p =>
          .ok (collectionItem head.kind p.1, p.2)) :=
    .guard _ fun _ => (h.untilBreak _ [] ⟨fun _ => Nat.zero_le _, nofun⟩ hrest).bind
      fun _ _ hitems hleft => .ok hitems.collectionItem hleft
  unfold readBody
  split
  · exact .ok (.unsigned _) hrest
  · exact .ok (.negative _) hrest
  · refine .ok ?_ hrest
    split
    · exact .simple _
    · exact .float _
  · exact .guard _ fun _ => (h.item _ _ hrest).bind fun _ _ hitem hleft => .ok (.tag hitem) hleft
  · exact hcontent _
  · exact hcontent _
  · exact hchunks
  · exact hchunks
  · exact hcounted _
  · exact hcounted _
  · exact hopen
  · exact hopen
  · exact .error _

theorem zero : FuelBounded limit 0 where
  item _ _ _ _ := by rw [readItem]; exact .error _
  items _ _ _ _ _ _ := by rw [readItems]; exact .error _
  untilBreak _ _ _ _ _ _ := by rw [readUntilBreak]; exact .error _

theorem succ (h : FuelBounded limit fuel) : FuelBounded limit (fuel + 1) where
  item depth tagged bytes hbytes := by
    rw [readItem_succ]
    exact (yields_readHead hbytes).bind fun head rest _ hrest => h.body depth tagged head hrest
  items depth count known hknown bytes hbytes := by
    cases count with
    | zero =>
      rw [readItems_zero]
      refine .ok ⟨List.length_reverse, fun item hitem => ?_⟩ hbytes
      exact hknown item (List.mem_reverse.mp hitem)
    | succ count =>
      rw [readItems_succ]
      refine (h.item depth false hbytes).bind fun item rest hitem hrest => ?_
      have hnext := h.items depth count _ (List.forall_mem_cons.mpr ⟨hitem, hknown⟩) hrest
      rwa [List.length_cons, Nat.add_assoc, Nat.add_comm 1] at hnext
  untilBreak depth kind known hknown bytes hbytes := by
    cases bytes with
    | nil =>
      rw [readUntilBreak_nil]
      exact .error _
    | cons byte rest =>
      rw [readUntilBreak_cons]
      split
      · refine .guard _ fun _ => .ok ⟨fun hkind => ?_, fun item hitem => ?_⟩ ?_
        · rw [List.length_reverse]
          exact hknown.count hkind
        · exact hknown.each item (List.mem_reverse.mp hitem)
        · rw [List.length_cons] at hbytes
          omega
      · refine (h.item depth false hbytes).bind fun item rest hitem hrest => ?_
        dsimp only
        split
        · exact .error _
        · next hfull =>
          have hnext : Elements limit kind (item :: known) :=
            ⟨fun hkind => length_le_of_overfull? hkind hfull,
              List.forall_mem_cons.mpr ⟨hitem, hknown.each⟩⟩
          exact h.untilBreak depth _ hnext hrest

theorem all (limit fuel : Nat) : FuelBounded limit fuel := by
  induction fuel with
  | zero => exact zero
  | succ fuel ih => exact ih.succ

end FuelBounded

/-- **What is read from bytes holds no more text than there are bytes**, in arrays that are not too
long. -/
theorem bounded_of_read {bytes : List UInt8} {item : Item} (h : read bytes = .ok item) :
    item.Bounded bytes.length :=
  ((FuelBounded.all _ _).item 0 false (Nat.le_refl _) item [] (read_eq_ok.mp h).2).1

end Items

end RegisterMachine.Cbor
