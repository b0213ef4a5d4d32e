import RegisterMachine.Proofs.Cbor.Items

/-!
# Items mark their own ends

What is read from some bytes is read as well when others follow, and those are left over. Only bytes
that end too early are read differently when there are more of them. So of two byte sequences of
which one continues the other, at most one is an item.
-/

set_option autoImplicit false

namespace RegisterMachine.Cbor

open Checks

/-! ### Results for longer input -/

/-- The second result, for an input that goes on with `tail`, is the first with `tail` left over. If
the shorter input ends too early, it may be any result. -/
def Continues {α : Type} (tail : List UInt8) (r r' : Except Malformed (α × List UInt8)) : Prop :=
  r = .error .truncated ∨ r' = r.map fun p => (p.1, p.2 ++ tail)

namespace Continues

variable {α β : Type} {tail : List UInt8} {r r' : Except Malformed (α × List UInt8)}

theorem truncated : Continues tail (.error .truncated) r :=
  .inl rfl

theorem error (e : Malformed) : Continues (α := α) tail (.error e) (.error e) :=
  .inr rfl

theorem ok (a : α) (rest : List UInt8) : Continues tail (.ok (a, rest)) (.ok (a, rest ++ tail)) :=
  .inr rfl

/-- One part is read after the other. -/
theorem bind (h : Continues tail r r') {f f' : α × List UInt8 → Except Malformed (β × List UInt8)}
    (hf : ∀ a rest, Continues tail (f (a, rest)) (f' (a, rest ++ tail))) :
    Continues tail (r >>= f) (r' >>= f') := by
  rcases h with rfl | rfl
  · exact truncated
  · cases r with
    | error e => exact error e
    | ok p => exact hf p.1 p.2

/-- A check that does not look at the input. -/
theorem guard {p : Prop} [Decidable p] (e : Malformed) (h : Continues tail r r') :
    Continues tail (if p then .error e else r) (if p then .error e else r') := by
  split
  · exact error e
  · exact h

theorem of_ok {a : α} {rest : List UInt8} (h : Continues tail (.ok (a, rest)) r') :
    r' = .ok (a, rest ++ tail) := by
  rcases h with h | h
  · cases h
  · exact h

end Continues

/-! ### Heads and strings -/

section Strings

variable (tail : List UInt8)

theorem splitBytes?_eq_some {n : Nat} {bytes front rest : List UInt8} :
    splitBytes? n bytes = some (front, rest) ↔ bytes = front ++ rest ∧ front.length = n := by
  constructor
  · intro h
    unfold splitBytes? at h
    dsimp only at h
    split at h
    · cases h
    · obtain ⟨rfl, rfl⟩ := Prod.mk.inj (Option.some.inj h)
      refine ⟨(List.take_append_drop n bytes).symm, ?_⟩
      have hle := List.length_take_le n bytes
      omega
  · rintro ⟨rfl, hlength⟩
    exact splitBytes?_append hlength rest

theorem splitBytes?_continues {n : Nat} {bytes front rest : List UInt8}
    (h : splitBytes? n bytes = some (front, rest)) :
    splitBytes? n (bytes ++ tail) = some (front, rest ++ tail) := by
  obtain ⟨rfl, hlength⟩ := splitBytes?_eq_some.mp h
  exact splitBytes?_eq_some.mpr ⟨List.append_assoc .., hlength⟩

theorem continues_readHead (bytes : List UInt8) :
    Continues tail (readHead bytes) (readHead (bytes ++ tail)) := by
  cases bytes with
  | nil => exact .truncated
  | cons initial rest =>
    rw [List.cons_append, readHead, readHead]
    dsimp only
    split
    · exact .ok _ _
    · split
      · next width _ =>
        cases hsplit : splitBytes? width rest with
        | none => exact .truncated
        | some p =>
          rw [splitBytes?_continues tail hsplit]
          dsimp only
          split
          · exact .error _
          · exact .ok _ _
      · split
        · split
          · exact .error _
          · exact .error _
          · exact .error _
          · exact .error _
          · exact .ok _ _
        · exact .error _

theorem continues_readContent (kind : Kind) (length : Nat) (bytes : List UInt8) :
    Continues tail (readContent kind length bytes) (readContent kind length (bytes ++ tail)) := by
  unfold readContent
  split
  · exact .error _
  · cases hsplit : splitBytes? length bytes with
    | none => exact .truncated
    | some p =>
      rw [splitBytes?_continues tail hsplit]
      exact .ok _ _

theorem continues_readChunk (whole : Kind) (bytes : List UInt8) :
    Continues tail (readChunk whole bytes) (readChunk whole (bytes ++ tail)) := by
  cases bytes with
  | nil => exact .truncated
  | cons initial rest =>
    rw [List.cons_append, readChunk, readChunk]
    dsimp only
    split
    · exact .error _
    · split
      · exact .error _
      · refine (continues_readHead tail (initial :: rest)).bind fun head rest => ?_
        dsimp only
        split
        · exact continues_readContent tail _ _ _
        · exact .error _

theorem readChunks_cons (whole : Kind) (fuel : Nat) (known : List (List UInt8)) (byte : UInt8)
    (rest : List UInt8) :
    readChunks whole (fuel + 1) known (byte :: rest) =
      if byte = breakByte then .ok (known.reverse, rest)
      else readChunk whole (byte :: rest) >>= fun p => readChunks whole fuel (p.1 :: known) p.2 := by
  rw [readChunks]
  cases readChunk whole (byte :: rest) <;> rfl

theorem continues_readChunks (whole : Kind) {fuel fuel' : Nat} (hfuel : fuel ≤ fuel')
    (known : List (List UInt8)) (bytes : List UInt8) :
    Continues tail (readChunks whole fuel known bytes)
      (readChunks whole fuel' known (bytes ++ tail)) := by
  induction fuel generalizing fuel' known bytes with
  | zero => exact .truncated
  | succ fuel ih =>
    obtain ⟨fuel', rfl⟩ : ∃ k, fuel' = k + 1 := ⟨fuel' - 1, by omega⟩
    cases bytes with
    | nil => exact .truncated
    | cons byte rest =>
      rw [List.cons_append, readChunks_cons, readChunks_cons]
      split
      · exact .ok _ _
      · exact (continues_readChunk tail whole (byte :: rest)).bind fun chunk rest =>
          ih (by omega) (chunk :: known) rest

end Strings

/-! ### Items -/

/-- An item from its head and the bytes behind that. -/
def readBody (fuel depth : Nat) (tagged : Bool) (head : Head) (rest : List UInt8) :
    Except Malformed (Item × List UInt8) :=
  match head.kind, head.argument with
  | .unsigned, .value n => .ok (.unsigned n, rest)
  | .negative, .value n => .ok (.negative n, rest)
  | .primitive, .value n => .ok (if head.information ≤ 24 then .simple n else .float n, rest)
  | .tag, .value number =>
    let depth := if tagged then depth + 1 else depth
    if depth > maxDepth then .error .tooDeep
    else readItem fuel depth true rest >>= fun p => .ok (.tag number p.1, p.2)
  | .bytes, .value length | .text, .value length =>
    readContent head.kind length rest >>= fun p => .ok (stringItem head.kind [p.1], p.2)
  | .bytes, .indefinite | .text, .indefinite =>
    readChunks head.kind fuel [] rest >>= fun p => .ok (stringItem head.kind p.1, p.2)
  | .array, .value length | .map, .value length =>
    if depth + 1 > maxDepth then .error .tooDeep
    else elementCount head.kind length >>= fun count =>
      readItems fuel (depth + 1) count [] rest >>= fun p => .ok (collectionItem head.kind p.1, p.2)
  | .array, .indefinite | .map, .indefinite =>
    if depth + 1 > maxDepth then .error .tooDeep
    else readUntilBreak fuel (depth + 1) head.kind 0 [] rest >>= fun p =>
      .ok (collectionItem head.kind p.1, p.2)
  | kind, .indefinite => .error (.badInformation head.information kind)

theorem readItem_succ (fuel depth : Nat) (tagged : Bool) (bytes : List UInt8) :
    readItem (fuel + 1) depth tagged bytes =
      readHead bytes >>= fun p => readBody fuel depth tagged p.1 p.2 := by
  rw [readItem]
  cases readHead bytes with
  | error e => rfl
  | ok p =>
    obtain ⟨⟨kind, information, argument⟩, rest⟩ := p
    rw [ok_bind, readBody]
    -- Both sides split in the same way; they differ in how a first error is passed on.
    cases kind <;> cases argument <;> dsimp only
    case tag.value => cases readItem fuel (if tagged then depth + 1 else depth) true rest <;> rfl
    case bytes.value length | text.value length => cases readContent _ length rest <;> rfl
    case bytes.indefinite | text.indefinite => cases readChunks _ fuel [] rest <;> rfl
    case array.value length | map.value length =>
      cases elementCount _ length with
      | error e => rfl
      | ok count =>
        simp only [ok_bind]
        cases readItems fuel (depth + 1) count [] rest <;> rfl
    case array.indefinite | map.indefinite =>
      cases readUntilBreak fuel (depth + 1) _ 0 [] rest <;> rfl

theorem readItems_succ (fuel depth count : Nat) (known : List Item) (bytes : List UInt8) :
    readItems (fuel + 1) depth (count + 1) known bytes =
      readItem fuel depth false bytes >>= fun p =>
        readItems fuel depth count (p.1 :: known) p.2 := by
  rw [readItems]
  cases readItem fuel depth false bytes <;> rfl

theorem readUntilBreak_nil (fuel depth : Nat) (kind : Kind) (count : Nat) (known : List Item) :
    readUntilBreak (fuel + 1) depth kind count known [] = .error .truncated := by
  simp [readUntilBreak]

theorem readUntilBreak_cons (fuel depth : Nat) (kind : Kind) (count : Nat) (known : List Item)
    (byte : UInt8) (rest : List UInt8) :
    readUntilBreak (fuel + 1) depth kind count known (byte :: rest) =
      if byte = breakByte then
        if kind = .map ∧ count % 2 = 1 then .error .strayBreak else .ok (known.reverse, rest)
      else readItem fuel depth false (byte :: rest) >>= fun p =>
        match overfull? kind (count + 1) with
        | some e => .error e
        | none => readUntilBreak fuel depth kind (count + 1) (p.1 :: known) p.2 := by
  rw [readUntilBreak]
  cases readItem fuel depth false (byte :: rest) <;> rfl

section Items

variable {tail : List UInt8}

/-- The three readers that call each other continue, with this fuel or less. -/
structure FuelContinues (tail : List UInt8) (fuel fuel' : Nat) : Prop where
  item (depth : Nat) (tagged : Bool) (bytes : List UInt8) :
    Continues tail (readItem fuel depth tagged bytes) (readItem fuel' depth tagged (bytes ++ tail))
  items (depth count : Nat) (known : List Item) (bytes : List UInt8) :
    Continues tail (readItems fuel depth count known bytes)
      (readItems fuel' depth count known (bytes ++ tail))
  untilBreak (depth : Nat) (kind : Kind) (count : Nat) (known : List Item) (bytes : List UInt8) :
    Continues tail (readUntilBreak fuel depth kind count known bytes)
      (readUntilBreak fuel' depth kind count known (bytes ++ tail))

namespace FuelContinues

variable {fuel fuel' : Nat}

theorem body (h : FuelContinues tail fuel fuel') (hfuel : fuel ≤ fuel') (depth : Nat)
    (tagged : Bool) (head : Head) (rest : List UInt8) :
    Continues tail (readBody fuel depth tagged head rest)
      (readBody fuel' depth tagged head (rest ++ tail)) := by
  have hcounted : ∀ length, Continues tail
      (elementCount head.kind length >>= fun count =>
        readItems fuel (depth + 1) count [] rest >>= fun p =>
          .ok (collectionItem head.kind p.1, p.2))
      (elementCount head.kind length >>= fun count =>
        readItems fuel' (depth + 1) count [] (rest ++ tail) >>= fun p =>
          .ok (collectionItem head.kind p.1, p.2)) := by
    intro length
    cases elementCount head.kind length with
    | error e => exact .error e
    | ok count => exact (h.items _ _ _ _).bind fun _ _ => .ok _ _
  unfold readBody
  split
  · exact .ok _ _
  · exact .ok _ _
  · exact .ok _ _
  · exact .guard _ ((h.item _ _ _).bind fun _ _ => .ok _ _)
  · exact (continues_readContent tail _ _ _).bind fun _ _ => .ok _ _
  · exact (continues_readContent tail _ _ _).bind fun _ _ => .ok _ _
  · exact (continues_readChunks tail _ hfuel _ _).bind fun _ _ => .ok _ _
  · exact (continues_readChunks tail _ hfuel _ _).bind fun _ _ => .ok _ _
  · exact .guard _ (hcounted _)
  · exact .guard _ (hcounted _)
  · exact .guard _ ((h.untilBreak _ _ _ _ _).bind fun _ _ => .ok _ _)
  · exact .guard _ ((h.untilBreak _ _ _ _ _).bind fun _ _ => .ok _ _)
  · exact .error _

theorem zero (fuel' : Nat) : FuelContinues tail 0 fuel' where
  item _ _ _ := by rw [readItem]; exact .truncated
  items _ _ _ _ := by rw [readItems]; exact .truncated
  untilBreak _ _ _ _ _ := by rw [readUntilBreak]; exact .truncated

theorem succ (h : FuelContinues tail fuel fuel') (hfuel : fuel ≤ fuel') :
    FuelContinues tail (fuel + 1) (fuel' + 1) where
  item depth tagged bytes := by
    rw [readItem_succ, readItem_succ]
    exact (continues_readHead tail bytes).bind fun head rest => h.body hfuel depth tagged head rest
  items depth count known bytes := by
    cases count with
    | zero =>
      rw [readItems_zero, readItems_zero]
      exact .ok _ _
    | succ count =>
      rw [readItems_succ, readItems_succ]
      exact (h.item _ _ _).bind fun item rest => h.items _ _ _ _
  untilBreak depth kind count known bytes := by
    cases bytes with
    | nil =>
      rw [readUntilBreak_nil]
      exact .truncated
    | cons byte rest =>
      rw [List.cons_append, readUntilBreak_cons, readUntilBreak_cons]
      split
      · exact .guard _ (.ok _ _)
      · refine (h.item depth false (byte :: rest)).bind fun item rest => ?_
        dsimp only
        split
        · exact .error _
        · exact h.untilBreak _ _ _ _ _

/-- **Fuel that is enough for some bytes is enough for more of them.** -/
theorem of_le (hfuel : fuel ≤ fuel') : FuelContinues tail fuel fuel' := by
  induction fuel generalizing fuel' with
  | zero => exact .zero fuel'
  | succ fuel ih =>
    obtain ⟨fuel', rfl⟩ : ∃ k, fuel' = k + 1 := ⟨fuel' - 1, by omega⟩
    exact (ih (by omega)).succ (by omega)

end FuelContinues

/-- **An item with more bytes behind it is read, and they are left over.** -/
theorem continues_readItem (front tail : List UInt8) {length : Nat}
    (hlength : front.length ≤ length) :
    Continues tail (readItem (fuelFor front.length) 0 false front)
      (readItem (fuelFor length) 0 false (front ++ tail)) :=
  (FuelContinues.of_le (by unfold fuelFor; omega)).item 0 false front

theorem read_eq_readItem {bytes : List UInt8} (h : bytes ≠ []) :
    read bytes = readItem (fuelFor bytes.length) 0 false bytes >>= fun p =>
      if p.2.isEmpty then .ok p.1
      else .error (.extraneous p.2.length (bytes.length - p.2.length)) := by
  rw [read, if_neg (by simpa using h)]
  cases readItem (fuelFor bytes.length) 0 false bytes <;> rfl

/-- **Bytes behind an item are refused**, and their number and place are told. -/
theorem read_append {bytes : List UInt8} {item : Item} (h : read bytes = .ok item)
    (htail : tail ≠ []) : read (bytes ++ tail) = .error (.extraneous tail.length bytes.length) := by
  obtain ⟨hne, hread⟩ := read_eq_ok.mp h
  have hle : bytes.length ≤ (bytes ++ tail).length := by simp
  have hcontinues := continues_readItem bytes tail hle
  rw [hread] at hcontinues
  rw [read_eq_readItem (by simp [hne]), hcontinues.of_ok, ok_bind]
  simp [htail]

/-- **An item without its end is refused** because it ends too early. -/
theorem read_front {front : List UInt8} {item : Item} (h : read (front ++ tail) = .ok item)
    (htail : tail ≠ []) : read front = .error (if front = [] then .empty else .truncated) := by
  by_cases hfront : front = []
  · rw [hfront, if_pos rfl]
    rfl
  · obtain ⟨-, hread⟩ := read_eq_ok.mp h
    have hle : front.length ≤ (front ++ tail).length := by simp
    have hcontinues := continues_readItem front tail hle
    rw [if_neg hfront, read_eq_readItem hfront]
    rcases hcontinues with htruncated | hwhole
    · rw [htruncated]
      rfl
    · -- Otherwise what follows would be left over.
      rw [hread] at hwhole
      cases hpart : readItem (fuelFor front.length) 0 false front with
      | error e =>
        rw [hpart] at hwhole
        cases hwhole
      | ok p =>
        rw [hpart] at hwhole
        have hrest : [] = p.2 ++ tail := congrArg Prod.snd (Except.ok.inj hwhole)
        exact absurd (List.append_eq_nil_iff.mp hrest.symm).2 htail

end Items

/-! ### Written items -/

theorem readHead_null (rest : List UInt8) :
    readHead (writeNull ++ rest) = .ok (⟨.primitive, 22, .value 22⟩, rest) := rfl

theorem elementCount_eq_ok {kind : Kind} {n count : Nat} (h : elementCount kind n = .ok count) :
    n ≤ maxElements ∧ count = if kind = .map then 2 * n else n := by
  unfold elementCount at h
  split at h
  · cases h
  · split at h
    · next hmap =>
      split at h
      · cases h
      · next hn => exact ⟨Nat.not_lt.mp hn, by rw [if_pos hmap, Except.ok.inj h]⟩
    · next hmap =>
      split at h
      · cases h
      · next hn => exact ⟨Nat.not_lt.mp hn, by rw [if_neg hmap, Except.ok.inj h]⟩

/-- If the bytes are read at all, then as one item that ends with them. -/
structure Framed (bytes : List UInt8) : Prop where
  ends : ∀ {fuel depth : Nat} {tagged : Bool} {rest left : List UInt8} {item : Item},
    readItem fuel depth tagged (bytes ++ rest) = .ok (item, left) → left = rest

namespace Framed

theorem of_step {bytes : List UInt8}
    (h : ∀ {fuel depth : Nat} {tagged : Bool} {rest left : List UInt8} {item : Item},
      readItem (fuel + 1) depth tagged (bytes ++ rest) = .ok (item, left) → left = rest) :
    Framed bytes := by
  refine ⟨fun {fuel depth tagged rest left item} hread => ?_⟩
  cases fuel with
  | zero =>
    rw [readItem] at hread
    cases hread
  | succ fuel => exact h hread

/-- The head is read back, and what is behind it ends with these bytes. -/
theorem of_body {kind : Kind} {n : Nat} {content : List UInt8} (hkind : kind ≠ .primitive)
    (h : ∀ {fuel depth : Nat} {tagged : Bool} {information : Nat} {rest left : List UInt8}
      {item : Item}, readBody fuel depth tagged ⟨kind, information, .value (n % 2 ^ 64)⟩
        (content ++ rest) = .ok (item, left) → left = rest) :
    Framed (writeHead kind n ++ content) := by
  refine .of_step fun {_ _ _ rest _ _} hread => ?_
  obtain ⟨information, hhead⟩ := readHead_writeHead kind hkind n (content ++ rest)
  rw [List.append_assoc, readItem_succ, hhead, ok_bind] at hread
  exact h hread

theorem number {kind : Kind} (hkind : kind = .unsigned ∨ kind = .negative) (n : Nat) :
    Framed (writeHead kind n) := by
  rw [← List.append_nil (writeHead kind n)]
  rcases hkind with rfl | rfl
  all_goals
    refine of_body (by decide) fun hread => ?_
    exact (congrArg Prod.snd (Except.ok.inj hread)).symm

theorem integer (n : Int64) : Framed (writeInt n) := by
  unfold writeInt
  split
  · exact number (.inl rfl) _
  · exact number (.inr rfl) _

theorem null : Framed writeNull := by
  refine .of_step fun hread => ?_
  rw [readItem_succ, readHead_null] at hread
  exact (congrArg Prod.snd (Except.ok.inj hread)).symm

theorem text {content : List UInt8} (h : content.length < 2 ^ 63) : Framed (writeText content) := by
  refine of_body (by decide) fun {_ _ _ _ rest _ _} hread => ?_
  have hmod : content.length % 2 ^ 64 = content.length := Nat.mod_eq_of_lt (by omega)
  have hfits : ¬ content.length ≥ 0x8000000000000000 := by omega
  rw [hmod] at hread
  simp only [readBody, readContent, if_neg hfits, splitBytes?_append rfl, ok_bind] at hread
  exact (congrArg Prod.snd (Except.ok.inj hread)).symm

theorem items {parts : List (List UInt8)} (h : ∀ part ∈ parts, Framed part) {fuel depth : Nat}
    {known found : List Item} {rest left : List UInt8}
    (hread : readItems fuel depth parts.length known (parts.flatten ++ rest) = .ok (found, left)) :
    left = rest := by
  induction parts generalizing fuel known with
  | nil =>
    cases fuel with
    | zero =>
      rw [readItems] at hread
      cases hread
    | succ fuel =>
      rw [List.length_nil, readItems_zero] at hread
      exact (congrArg Prod.snd (Except.ok.inj hread)).symm
  | cons part parts ih =>
    obtain ⟨hpart, hparts⟩ := List.forall_mem_cons.mp h
    cases fuel with
    | zero =>
      rw [readItems] at hread
      cases hread
    | succ fuel =>
      rw [List.length_cons, List.flatten_cons, List.append_assoc, readItems_succ] at hread
      obtain ⟨⟨item, behind⟩, hitem, hread⟩ := bind_eq_ok.mp hread
      obtain rfl := hpart.ends hitem
      exact ih hparts hread

theorem collection {kind : Kind} (hkind : kind = .array ∨ kind = .map) {n : Nat}
    {parts : List (List UInt8)} (hn : n < 2 ^ 64)
    (hcount : parts.length = if kind = .map then 2 * n else n)
    (h : ∀ part ∈ parts, Framed part) : Framed (writeHead kind n ++ parts.flatten) := by
  refine of_body (by rcases hkind with rfl | rfl <;> decide) fun {_ _ _ _ rest _ _} hread => ?_
  have hbody : ∀ {fuel depth : Nat} {item : Item} {left : List UInt8},
      (if depth + 1 > maxDepth then .error .tooDeep
        else elementCount kind n >>= fun count =>
          readItems fuel (depth + 1) count [] (parts.flatten ++ rest) >>= fun p =>
            .ok (collectionItem kind p.1, p.2)) = .ok (item, left) → left = rest := by
    intro fuel depth item left hread
    split at hread
    · cases hread
    · obtain ⟨count, helements, hread⟩ := bind_eq_ok.mp hread
      obtain ⟨⟨found, behind⟩, hfound, hend⟩ := bind_eq_ok.mp hread
      rw [(elementCount_eq_ok helements).2, ← hcount] at hfound
      obtain rfl := items h hfound
      exact (congrArg Prod.snd (Except.ok.inj hend)).symm
  rw [Nat.mod_eq_of_lt hn] at hread
  rcases hkind with rfl | rfl <;> exact hbody hread

theorem array {parts : List (List UInt8)} (hlength : parts.length < 2 ^ 64)
    (h : ∀ part ∈ parts, Framed part) : Framed (writeArray parts) :=
  collection (.inl rfl) hlength (by simp) h

theorem record {fields : List (Nat × List UInt8)} (hlength : fields.length < 2 ^ 64)
    (h : ∀ field ∈ fields, Framed field.2) : Framed (writeRecord fields) := by
  rw [writeRecord_eq]
  refine collection (.inr rfl) hlength ?_ fun part hpart => ?_
  · simp [recordParts, List.length_flatMap, Nat.mul_comm]
  · obtain ⟨field, hfield, hmem⟩ := List.mem_flatMap.mp hpart
    rcases List.mem_pair.mp hmem with rfl | rfl
    · exact number (.inl rfl) field.1
    · exact h field hfield

end Framed

end RegisterMachine.Cbor
