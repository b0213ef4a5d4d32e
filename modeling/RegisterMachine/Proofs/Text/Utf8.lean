import RegisterMachine.Text.Utf8

/-!
# Bytes of characters

The bytes of a text are those of its characters, one after the other. An ASCII character has one
byte, and no other character starts with such a byte; so the first byte of a text that is read from
arbitrary bytes is ASCII if its first character is.
-/

set_option autoImplicit false

namespace RegisterMachine.Utf8

/-- The bytes of characters in a row. -/
def encodeChars (cs : List Char) : List UInt8 :=
  cs.flatMap String.utf8EncodeChar

theorem encodeChars_append (cs ds : List Char) :
    encodeChars (cs ++ ds) = encodeChars cs ++ encodeChars ds :=
  List.flatMap_append

theorem encode_eq (s : String) : encode s = encodeChars s.toList := by
  have hbytes : s.toByteArray = (encodeChars s.toList).toByteArray :=
    String.utf8Encode_toList.symm
  rw [encode, String.toUTF8_eq_toByteArray, hbytes, List.data_toByteArray]

theorem encode_ofList (cs : List Char) : encode (String.ofList cs) = encodeChars cs := by
  rw [encode_eq, String.toList_ofList]

theorem length_encode_le (s : String) : (encode s).length ≤ 4 * s.toList.length := by
  rw [encode_eq]
  induction s.toList with
  | nil => exact Nat.le_refl 0
  | cons c cs ih =>
    have hc := c.utf8Size_le_four
    simp only [encodeChars, List.flatMap_cons, List.length_append, List.length_cons,
      String.length_utf8EncodeChar] at ih ⊢
    omega

theorem decode?_encode (s : String) : decode? (encode s) = some s := by
  simp only [decode?, encode, String.fromUTF8?, Array.toArray_toList]
  exact dif_pos s.isValidUTF8

theorem readable_encode (s : String) : readable (encode s) = s := by
  rw [readable, decode?_encode]

theorem encode_of_decode? {bytes : List UInt8} {s : String} (h : decode? bytes = some s) :
    encode s = bytes := by
  unfold decode? String.fromUTF8? at h
  split at h
  · obtain rfl := Option.some.inj h
    rfl
  · cases h

/-! ### ASCII characters -/

theorem utf8EncodeChar_ascii {c : Char} (h : c.toNat < 128) :
    String.utf8EncodeChar c = [UInt8.ofNat c.toNat] := by
  have hsize : c.utf8Size = 1 :=
    Char.utf8Size_eq_one_iff.mpr (UInt32.le_iff_toNat_le.mpr (Nat.le_of_lt_succ h))
  rw [String.utf8EncodeChar_eq_singleton hsize]
  rfl

/-- The code of a printable ASCII character, a tab or a character that ends a line. -/
def Plain (n : Nat) : Prop :=
  n = 0x0A ∨ n = 0x0D ∨ n = 0x09 ∨ 0x20 ≤ n ∧ n ≤ 0x7E

instance (n : Nat) : Decidable (Plain n) :=
  inferInstanceAs (Decidable (_ ∨ _))

theorem Plain.lt {n : Nat} (h : Plain n) : n < 128 := by
  unfold Plain at h
  omega

theorem plain_of_mem_encodeChars {cs : List Char} (h : ∀ c ∈ cs, Plain c.toNat) {b : UInt8}
    (hb : b ∈ encodeChars cs) : Plain b.toNat := by
  obtain ⟨c, hc, hbc⟩ := List.mem_flatMap.mp hb
  have hlt := (h c hc).lt
  rw [utf8EncodeChar_ascii hlt, List.mem_singleton] at hbc
  rw [hbc, UInt8.toNat_ofNat', Nat.mod_eq_of_lt (Nat.lt_trans hlt (by decide))]
  exact h c hc

theorem head_of_firstChar? {b : UInt8} {rest : List UInt8} {c : Char}
    (h : firstChar? (b :: rest) = some c) (hc : c.toNat < 128) : b = UInt8.ofNat c.toNat := by
  obtain ⟨others, hbytes⟩ := ByteArray.exists_of_utf8DecodeChar?_eq_some h
  have hlist : (b :: rest).take 4 = UInt8.ofNat c.toNat :: others.data.toList := by
    simpa [utf8EncodeChar_ascii hc] using congrArg (fun bytes => bytes.data.toList) hbytes
  exact (List.cons.inj hlist).1

/-- Bytes are read as characters, and if the first of these is ASCII, then it is the first byte. -/
theorem readable_cons (b : UInt8) (rest : List UInt8) :
    ∃ c cs, (readable (b :: rest)).toList = c :: cs ∧
      (c.toNat < 128 → b = UInt8.ofNat c.toNat) := by
  unfold readable
  split
  · next s hs =>
    have hbytes := encode_of_decode? hs
    rw [encode_eq] at hbytes
    cases hchars : s.toList with
    | nil =>
      rw [hchars] at hbytes
      cases hbytes
    | cons c cs =>
      refine ⟨c, cs, rfl, fun hc => ?_⟩
      rw [hchars, encodeChars, List.flatMap_cons, utf8EncodeChar_ascii hc] at hbytes
      exact (List.cons.inj hbytes).1.symm
  · rw [String.toList_ofList, charsAt]
    split
    · next c hc => exact ⟨c, _, rfl, head_of_firstChar? hc⟩
    · -- A byte that starts no character is read as U+FFFD, which is not ASCII.
      exact ⟨_, _, rfl, fun hc => absurd hc (by decide)⟩

end RegisterMachine.Utf8
