import RegisterMachine.Proofs.Assembly.Lexing
import RegisterMachine.Proofs.Text.Utf8

/-!
# Tokens side by side

The tokens of a text follow each other without a gap. The place of a token counts the bytes in
front of it, so each byte of the text is found in one token at its distance from the start of that
token. Outside of comments all characters are plain.
-/

set_option autoImplicit false

namespace RegisterMachine.Assembly

open Utf8 (encodeChars Plain)

/-! ### One token -/

section Lexes

variable {cs text : List Char} {kind : TokenKind}

/-- A token takes at least the first character of its text, and nothing but a part in front. -/
theorem Lexes.split (h : Lexes cs kind text) :
    ∃ c tail rest, text = c :: tail ∧ cs = c :: (tail ++ rest) := by
  cases h with
  | comment => exact ⟨_, _, _, rfl, by rw [List.takeWhile_append_dropWhile]⟩
  | lineEnd => exact ⟨_, [], _, rfl, rfl⟩
  | blank => exact ⟨_, _, _, rfl, by rw [List.takeWhile_append_dropWhile]⟩
  | register =>
    exact ⟨_, _, _, rfl, by rw [List.cons_append, List.takeWhile_append_dropWhile]⟩
  | digits => exact ⟨_, _, _, rfl, by rw [List.takeWhile_append_dropWhile]⟩
  | signed => exact ⟨_, _, _, rfl, by rw [List.takeWhile_append_dropWhile]⟩
  | name => exact ⟨_, _, _, rfl, by rw [List.takeWhile_append_dropWhile]⟩
  | punctuation => exact ⟨_, [], _, rfl, rfl⟩

theorem Lexes.ne_nil (h : Lexes cs kind text) : text ≠ [] := by
  obtain ⟨c, tail, rest, rfl, -⟩ := h.split
  exact List.cons_ne_nil c tail

theorem plain_of_range {c low high : Char} (hlow : low.val ≤ c.val) (hhigh : c.val ≤ high.val)
    (hrange : 0x20 ≤ low.toNat ∧ high.toNat ≤ 0x7E) : Plain c.toNat := by
  have hlow' : low.toNat ≤ c.toNat := UInt32.le_iff_toNat_le.mp hlow
  have hhigh' : c.toNat ≤ high.toNat := UInt32.le_iff_toNat_le.mp hhigh
  unfold Plain
  omega

theorem plain_of_isAlpha {c : Char} (h : c.isAlpha = true) : Plain c.toNat := by
  rcases Bool.or_eq_true_iff.mp h with hupper | hlower
  · obtain ⟨hlow, hhigh⟩ : 'A'.val ≤ c.val ∧ c.val ≤ 'Z'.val := of_decide_eq_true hupper
    exact plain_of_range hlow hhigh (by decide)
  · obtain ⟨hlow, hhigh⟩ := Bool.and_eq_true_iff.mp hlower
    have hlow' : 'a'.val ≤ c.val := of_decide_eq_true hlow
    have hhigh' : c.val ≤ 'z'.val := of_decide_eq_true hhigh
    exact plain_of_range hlow' hhigh' (by decide)

theorem plain_of_isDigit {c : Char} (h : c.isDigit = true) : Plain c.toNat := by
  obtain ⟨hlow, hhigh⟩ := Bool.and_eq_true_iff.mp h
  have hlow' : '0'.val ≤ c.val := of_decide_eq_true hlow
  have hhigh' : c.val ≤ '9'.val := of_decide_eq_true hhigh
  exact plain_of_range hlow' hhigh' (by decide)

theorem plain_of_isAlphanum {c : Char} (h : c.isAlphanum = true) : Plain c.toNat :=
  (Bool.or_eq_true_iff.mp h).elim plain_of_isAlpha plain_of_isDigit

theorem plain_of_isNameChar {c : Char} (h : isNameChar c = true) : Plain c.toNat := by
  simp only [isNameChar, Bool.or_eq_true, beq_iff_eq] at h
  rcases h with (halphanum | rfl) | rfl
  · exact plain_of_isAlphanum halphanum
  · decide
  · decide

theorem plain_of_isBlank {c : Char} (h : isBlank c = true) : Plain c.toNat := by
  simp only [isBlank, Bool.or_eq_true, beq_iff_eq] at h
  rcases h with (rfl | rfl) | rfl <;> decide

theorem plain_of_isNameStart {c : Char} (h : isNameStart c = true) : Plain c.toNat := by
  simp only [isNameStart, Bool.or_eq_true, beq_iff_eq] at h
  rcases h with (halpha | rfl) | rfl
  · exact plain_of_isAlpha halpha
  · decide
  · decide

theorem plain_of_punctuation? {c : Char} (h : punctuation? c = some kind) : Plain c.toNat := by
  unfold punctuation? at h
  split at h <;> first | decide | cases h

theorem forall_mem_takeWhile {p : Char → Bool} {q : Char → Prop} (h : ∀ {c}, p c = true → q c)
    (cs : List Char) : ∀ c ∈ cs.takeWhile p, q c :=
  fun c hc => h (List.all_eq_true.mp List.all_takeWhile c hc)

/-- The first of these characters is plain, and so are all of them in a token of this kind. -/
def PlainToken (kind : TokenKind) (text : List Char) : Prop :=
  (∀ c ∈ text.head?, Plain c.toNat) ∧ (kind ≠ .comment → ∀ c ∈ text, Plain c.toNat)

theorem plainToken_cons {c : Char} {tail : List Char} (hc : Plain c.toNat)
    (htail : ∀ d ∈ tail, Plain d.toNat) : PlainToken kind (c :: tail) :=
  ⟨by simpa using hc, fun _ => List.forall_mem_cons.mpr ⟨hc, htail⟩⟩

/-- A token starts with a plain character, and only a comment goes on with others. -/
theorem Lexes.plain (h : Lexes cs kind text) : PlainToken kind text := by
  cases h with
  | comment start =>
    refine ⟨?_, fun hkind => absurd rfl hkind⟩
    rcases start with rfl | rfl <;> simp [Plain]
  | lineEnd => exact plainToken_cons (by decide) nofun
  | blank start =>
    exact plainToken_cons (plain_of_isBlank start) (forall_mem_takeWhile plain_of_isBlank _)
  | register letter =>
    refine plainToken_cons (by decide) (List.forall_mem_cons.mpr ⟨plain_of_isAlpha letter, ?_⟩)
    exact forall_mem_takeWhile plain_of_isAlphanum _
  | digits start =>
    exact plainToken_cons (plain_of_isDigit start) (forall_mem_takeWhile plain_of_isDigit _)
  | signed start =>
    refine plainToken_cons ?_ (forall_mem_takeWhile plain_of_isDigit _)
    rcases start with rfl | rfl <;> decide
  | name start =>
    exact plainToken_cons (plain_of_isNameStart start) (forall_mem_takeWhile plain_of_isNameChar _)
  | punctuation start => exact plainToken_cons (plain_of_punctuation? start) nofun

end Lexes

/-! ### All tokens -/

/-- The tokens of a text that starts at a place: each follows a rule, and the next one starts where
it ends. -/
inductive Tiles : Position → List Char → List Token → Prop
  | nil {p : Position} : Tiles p [] []
  | cons {p : Position} {kind : TokenKind} {text rest : List Char} {tokens : List Token}
      (first : Lexes (text ++ rest) kind text)
      (others : Tiles (text.foldl Position.advance p) rest tokens) :
      Tiles p (text ++ rest) ({ kind, text := String.ofList text, position := p } :: tokens)

section Tiles

variable {p : Position} {cs : List Char} {tokens : List Token}

/-- The first token is split off a scan, whatever becomes of the rest. -/
theorem scan_token {text rest : List Char} {kind : TokenKind}
    (first : Lexes (text ++ rest) kind text) :
    scan 0 p (text ++ rest) =
      (scan 0 (text.foldl Position.advance p) rest).map (⟨kind, String.ofList text, p⟩ :: ·) := by
  cases text with
  | nil => exact absurd rfl first.ne_nil
  | cons c tail =>
    rw [List.cons_append] at first ⊢
    rw [scan, lexeme?_of_lexes first]
    simp only [List.length_cons, Nat.add_one_sub_one, scan_append, List.foldl_cons]
    cases scan 0 (tail.foldl Position.advance (p.advance c)) rest <;> rfl

theorem tiles_of_scan (h : scan 0 p cs = .ok tokens) : Tiles p cs tokens := by
  -- A token may be of any length, so the text behind it is no direct part of the text.
  induction hn : cs.length using Nat.strongRecOn generalizing p cs tokens with
  | ind n ih =>
    cases cs with
    | nil =>
      obtain rfl := Except.ok.inj h
      exact .nil
    | cons c cs =>
      rw [scan] at h
      split at h
      · cases h
      · next kind text hlexeme =>
        have first := lexes_of_lexeme? hlexeme
        obtain ⟨_, tail, rest, rfl, hsplit⟩ := first.split
        obtain ⟨rfl, rfl⟩ := List.cons.inj hsplit
        rw [List.length_cons, Nat.add_one_sub_one, scan_append] at h
        split at h
        · cases h
        · next others hothers =>
          obtain rfl := Except.ok.inj h
          rw [← List.cons_append] at first ⊢
          exact .cons first (ih rest.length (by simp at hn; omega) hothers rfl)

theorem offset_advance (p : Position) (c : Char) :
    (p.advance c).offset = p.offset + (String.utf8EncodeChar c).length := by
  rw [String.length_utf8EncodeChar, Position.advance]
  split
  · next hc => rw [hc]; rfl
  · rfl

/-- Offsets count bytes. -/
theorem offset_foldl_advance (p : Position) (cs : List Char) :
    (cs.foldl Position.advance p).offset = p.offset + (encodeChars cs).length := by
  induction cs generalizing p with
  | nil => rfl
  | cons c cs ih =>
    rw [List.foldl_cons, ih, offset_advance, encodeChars, encodeChars, List.flatMap_cons,
      List.length_append, Nat.add_assoc]

/-- Every byte of the text is one of a token. -/
theorem Tiles.exists_token (h : Tiles p cs tokens) {n : Nat} {b : UInt8}
    (hb : (encodeChars cs)[n]? = some b) :
    ∃ t ∈ tokens, ∃ k, (Utf8.encode t.text)[k]? = some b ∧
      t.position.offset + k = p.offset + n := by
  induction h generalizing n with
  | nil => cases hb
  | @cons p kind text rest tokens first others ih =>
    rw [Utf8.encodeChars_append, List.getElem?_append] at hb
    split at hb
    · exact ⟨_, List.mem_cons_self, n, by rwa [Utf8.encode_ofList], rfl⟩
    · next hn =>
      obtain ⟨t, ht, k, hbyte, hoffset⟩ := ih hb
      rw [offset_foldl_advance] at hoffset
      exact ⟨t, List.mem_cons_of_mem _ ht, k, hbyte, by omega⟩

/-- Every byte of a token is one of the text. -/
theorem Tiles.exists_byte (h : Tiles p cs tokens) {t : Token} (ht : t ∈ tokens) {k : Nat}
    {b : UInt8} (hb : (Utf8.encode t.text)[k]? = some b) :
    ∃ n, (encodeChars cs)[n]? = some b ∧ t.position.offset + k = p.offset + n := by
  induction h with
  | nil => cases ht
  | @cons p kind text rest tokens first others ih =>
    rw [Utf8.encodeChars_append]
    rcases List.mem_cons.mp ht with rfl | ht
    · rw [Utf8.encode_ofList] at hb
      obtain ⟨hk, -⟩ := List.getElem?_eq_some_iff.mp hb
      exact ⟨k, by rwa [List.getElem?_append_left hk], rfl⟩
    · obtain ⟨n, hbyte, hoffset⟩ := ih ht
      rw [offset_foldl_advance] at hoffset
      refine ⟨(encodeChars text).length + n, ?_, by omega⟩
      rw [List.getElem?_append_right (Nat.le_add_right _ _), Nat.add_sub_cancel_left, hbyte]

theorem Tiles.plain (h : Tiles p cs tokens) {t : Token} (ht : t ∈ tokens)
    (hkind : t.kind ≠ .comment) {b : UInt8} (hb : b ∈ Utf8.encode t.text) : Plain b.toNat := by
  induction h with
  | nil => cases ht
  | cons first others ih =>
    rcases List.mem_cons.mp ht with rfl | ht
    · rw [Utf8.encode_ofList] at hb
      exact Utf8.plain_of_mem_encodeChars (first.plain.2 hkind) hb
    · exact ih ht

theorem Tiles.plain_head (h : Tiles p cs tokens) : ∀ c ∈ cs.head?, Plain c.toNat := by
  cases h with
  | nil => exact nofun
  | cons first others =>
    obtain ⟨c, tail, rest, rfl, -⟩ := first.split
    exact first.plain.1

end Tiles

end RegisterMachine.Assembly
