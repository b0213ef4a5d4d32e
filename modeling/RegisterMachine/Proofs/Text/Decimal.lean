import RegisterMachine.Text.Decimal

/-!
# Decimal numbers read back

Writing a number and reading the text gives the number again, within the range that a reader
accepts.
-/

set_option autoImplicit false

namespace RegisterMachine.Decimal

theorem toList_ofNat (n : Nat) : (ofNat n).toList = Nat.toDigits 10 n := by
  rw [ofNat, String.toList_ofList]

theorem readNat?_toDigits (n : Nat) : readNat? (Nat.toDigits 10 n) = some n := by
  have hne : (Nat.toDigits 10 n).isEmpty = false :=
    List.isEmpty_eq_false_iff.mpr Nat.toDigits_ne_nil
  have hall : (Nat.toDigits 10 n).all Char.isDigit = true :=
    List.all_eq_true.mpr fun c hc => Nat.isDigit_of_mem_toDigits (by decide) (by decide) hc
  simp [readNat?, hne, hall, Nat.ofDigitChars_ten_toDigits]

theorem ofInt_natCast (n : Nat) : ofInt n = ofNat n := rfl

/-- A text of digits has no sign in front. -/
theorem readInt?_of_digits {c : Char} {digits : List Char} (hc : c.isDigit = true) :
    readInt? (c :: digits) = (readNat? (c :: digits)).map fun n => (n : Int) := by
  have hminus : c ≠ '-' := by rintro rfl; cases hc
  have hplus : c ≠ '+' := by rintro rfl; cases hc
  unfold readInt?
  split <;> simp_all

theorem readInt?_ofInt (n : Int) : readInt? (ofInt n).toList = some n := by
  cases n with
  | ofNat n =>
    rw [ofInt, toList_ofNat]
    cases hd : Nat.toDigits 10 n with
    | nil => exact absurd hd Nat.toDigits_ne_nil
    | cons c digits =>
      have hc : c.isDigit = true :=
        Nat.isDigit_of_mem_toDigits (by decide) (by decide) (hd ▸ List.mem_cons_self)
      rw [readInt?_of_digits hc, ← hd, readNat?_toDigits]
      rfl
  | negSucc n =>
    have hlist : (ofInt (.negSucc n)).toList = '-' :: Nat.toDigits 10 (n + 1) := by
      rw [ofInt, String.toList_append, toList_ofNat]
      rfl
    rw [hlist, readInt?, readNat?_toDigits]
    rfl

/-- **Every signed 32-bit number is read back as itself.** -/
theorem readInt32?_ofInt {n : Int} (h : FitsInt32 n) :
    readInt32? (ofInt n) = some (Int64.ofInt n) := by
  rw [readInt32?, readInt?_ofInt]
  exact if_pos h

theorem toInt_ofInt {n : Int} (h : FitsInt32 n) : (Int64.ofInt n).toInt = n := by
  obtain ⟨hlow, hhigh⟩ := h
  exact Int64.toInt_ofInt_of_le (by omega) (by omega)

theorem fitsInt32_toInt (v : Int32) : FitsInt32 v.toInt :=
  ⟨v.le_toInt, v.toInt_lt⟩

/-- What a reader accepts has 32 bits. -/
theorem fitsInt32_of_readInt32? {token : String} {n : Int64} (h : readInt32? token = some n) :
    FitsInt32 n.toInt := by
  unfold readInt32? at h
  split at h
  · split at h
    · next fits =>
      obtain rfl := Option.some.inj h
      rw [toInt_ofInt fits]
      exact fits
    · cases h
  · cases h

/-! ### Numerals -/

/-- The text is an optional sign in front of at least one digit, and stands for this integer. -/
inductive Denotes : List Char → Int → Prop
  | unsigned {digits : List Char} (some : digits ≠ []) (all : ∀ c ∈ digits, c.isDigit = true) :
      Denotes digits (Nat.ofDigitChars 10 digits 0)
  | plus {digits : List Char} (some : digits ≠ []) (all : ∀ c ∈ digits, c.isDigit = true) :
      Denotes ('+' :: digits) (Nat.ofDigitChars 10 digits 0)
  | minus {digits : List Char} (some : digits ≠ []) (all : ∀ c ∈ digits, c.isDigit = true) :
      Denotes ('-' :: digits) (-(Nat.ofDigitChars 10 digits 0))

/-- The token stands for a signed 32-bit number. -/
def Numeral (token : String) (n : Int) : Prop :=
  Denotes token.toList n ∧ FitsInt32 n

theorem readNat?_eq_some {digits : List Char} {n : Nat} :
    readNat? digits = some n ↔
      (digits ≠ [] ∧ ∀ c ∈ digits, c.isDigit = true) ∧ Nat.ofDigitChars 10 digits 0 = n := by
  unfold readNat?
  split
  · next h =>
    simp only [Bool.or_eq_true, List.isEmpty_iff, Bool.not_eq_true', List.all_eq_false] at h
    refine iff_of_false nofun ?_
    rintro ⟨⟨hne, hall⟩, -⟩
    exact h.elim hne fun ⟨c, hc, hd⟩ => hd (hall c hc)
  · next h =>
    simp only [Bool.or_eq_true, List.isEmpty_iff, not_or, Bool.not_eq_true', Bool.not_eq_false,
      List.all_eq_true] at h
    rw [Option.some.injEq]
    exact (and_iff_right h).symm

/-- **A number is read exactly from a numeral.** -/
theorem readInt?_eq_some {cs : List Char} {n : Int} : readInt? cs = some n ↔ Denotes cs n := by
  constructor
  · intro h
    unfold readInt? at h
    split at h
    all_goals
      obtain ⟨_, hv, rfl⟩ := Option.map_eq_some_iff.mp h
      obtain ⟨k, hk, hv⟩ := Option.bind_eq_some_iff.mp hv
      obtain ⟨⟨hne, hall⟩, rfl⟩ := readNat?_eq_some.mp hk
      cases hv
    · exact .minus hne hall
    · exact .plus hne hall
    · exact .unsigned hne hall
  · intro h
    cases h with
    | unsigned hne hall =>
      cases cs with
      | nil => exact absurd rfl hne
      | cons c digits =>
        rw [readInt?_of_digits (hall c List.mem_cons_self),
          readNat?_eq_some.mpr ⟨⟨hne, hall⟩, rfl⟩]
        rfl
    | plus hne hall => rw [readInt?, readNat?_eq_some.mpr ⟨⟨hne, hall⟩, rfl⟩]; rfl
    | minus hne hall => rw [readInt?, readNat?_eq_some.mpr ⟨⟨hne, hall⟩, rfl⟩]; rfl

theorem readInt32?_eq_some {token : String} {n : Int64} :
    readInt32? token = some n ↔ ∃ v, Numeral token v ∧ Int64.ofInt v = n := by
  unfold readInt32? Numeral
  split
  · next v hv =>
    rw [readInt?_eq_some] at hv
    constructor
    · intro h
      split at h
      · next fits => exact ⟨v, ⟨hv, fits⟩, Option.some.inj h⟩
      · cases h
    · rintro ⟨w, ⟨hw, fits⟩, rfl⟩
      -- A text stands for one number only.
      obtain rfl := Option.some.inj ((readInt?_eq_some.mpr hv).symm.trans (readInt?_eq_some.mpr hw))
      exact if_pos fits
  · next hnone =>
    refine iff_of_false nofun ?_
    rintro ⟨v, ⟨hv, -⟩, -⟩
    rw [readInt?_eq_some.mpr hv] at hnone
    cases hnone

theorem ofInt_ne_empty (n : Int) : ofInt n ≠ "" := by
  intro h
  have := readInt?_ofInt n
  rw [h] at this
  cases this

/-- A 32-bit number has at most ten digits and a sign. -/
theorem length_ofInt_le {n : Int} (h : FitsInt32 n) :
    (ofInt n).toList.length ≤ 11 := by
  obtain ⟨hlow, hhigh⟩ := h
  have hdigits : ∀ {k : Nat}, k < 10 ^ 10 → (Nat.toDigits 10 k).length ≤ 10 :=
    (Nat.length_toDigits_le_iff (by decide) (by decide)).mpr
  cases n with
  | ofNat k =>
    rw [Int.ofNat_eq_natCast] at hhigh
    rw [ofInt, toList_ofNat]
    exact Nat.le_succ_of_le (hdigits (by omega))
  | negSucc k =>
    rw [ofInt, String.toList_append, toList_ofNat, List.length_append]
    exact Nat.add_le_add (Nat.le_refl 1) (hdigits (by omega))

end RegisterMachine.Decimal
