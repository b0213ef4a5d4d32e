import Mathlib.Algebra.Group.Nat.Defs
import Mathlib.Algebra.Ring.Int.Defs
import RegisterMachine.Cbor.Reader
import RegisterMachine.Cbor.Writer

/-!
# Heads read back

A written head is read as its kind and its argument, whatever follows. Arguments are 64-bit
numbers: of a larger one only the last 64 bits are written.
-/

set_option autoImplicit false

namespace RegisterMachine.Cbor

theorem length_bytesOfNat (width n : Nat) : (bytesOfNat width n).length = width := by
  induction width generalizing n with
  | zero => rfl
  | succ width ih => simp [bytesOfNat, ih]

theorem natOfBytes_append (bytes : List UInt8) (b : UInt8) :
    natOfBytes (bytes ++ [b]) = natOfBytes bytes * 256 + b.toNat := by
  simp [natOfBytes]

theorem natOfBytes_bytesOfNat (width n : Nat) :
    natOfBytes (bytesOfNat width n) = n % 256 ^ width := by
  induction width generalizing n with
  | zero => simp [bytesOfNat, natOfBytes, Nat.mod_one]
  | succ width ih =>
    have hbyte : (UInt8.ofNat (n % 256)).toNat = n % 256 := by simp
    rw [bytesOfNat, natOfBytes_append, ih, hbyte, Nat.pow_succ', Nat.mod_mul]
    omega

theorem splitBytes?_append {n : Nat} {front : List UInt8} (h : front.length = n)
    (rest : List UInt8) : splitBytes? n (front ++ rest) = some (front, rest) := by
  subst h
  simp [splitBytes?]

section InitialByte

variable {kind : Kind} {information : Nat} (h : information < 32)
include h

theorem toNat_initialByte :
    (initialByte kind information).toNat = kind.number * 32 + information := by
  have hk : kind.number ≤ 7 := by cases kind <;> decide
  rw [initialByte, UInt8.toNat_ofNat']
  omega

theorem ofInitial_initialByte : Kind.ofInitial (initialByte kind information) = kind := by
  have hdiv : (kind.number * 32 + information) / 32 = kind.number := by omega
  rw [Kind.ofInitial, toNat_initialByte h, hdiv]
  cases kind <;> rfl

theorem information_initialByte : (initialByte kind information).toNat % 32 = information := by
  rw [toNat_initialByte h]
  omega

end InitialByte

/-- A head whose argument takes `width` bytes. -/
theorem readHead_wide {kind : Kind} {information width : Nat} (hkind : kind ≠ .primitive)
    (hwidth : argumentWidth? information = some width) (n : Nat) (rest : List UInt8) :
    readHead (initialByte kind information :: (bytesOfNat width n ++ rest)) =
      .ok ({ kind, information, argument := .value (n % 256 ^ width) }, rest) := by
  have hinfo : 24 ≤ information ∧ information < 32 := by
    unfold argumentWidth? at hwidth
    split at hwidth <;> first | omega | cases hwidth
  simp only [readHead, ofInitial_initialByte hinfo.2, information_initialByte hinfo.2,
    Nat.not_lt.mpr hinfo.1, if_false, hwidth, splitBytes?_append (length_bytesOfNat width n),
    natOfBytes_bytesOfNat, hkind, false_and]

/-- **A written head is read back**, with the last 64 bits of its argument. -/
theorem readHead_writeHead (kind : Kind) (hkind : kind ≠ .primitive) (n : Nat)
    (rest : List UInt8) :
    ∃ information, readHead (writeHead kind n ++ rest) =
      .ok ({ kind, information, argument := .value (n % 2 ^ 64) }, rest) := by
  have hwide : ∀ {information width : Nat}, argumentWidth? information = some width →
      n % 256 ^ width = n % 2 ^ 64 →
      readHead ((initialByte kind information :: bytesOfNat width n) ++ rest) =
        .ok ({ kind, information, argument := .value (n % 2 ^ 64) }, rest) := by
    intro information width hwidth hmod
    rw [List.cons_append, readHead_wide hkind hwidth, hmod]
  unfold writeHead
  split
  · next hn =>
    have hmod : n % 2 ^ 64 = n := Nat.mod_eq_of_lt (by omega)
    refine ⟨n, ?_⟩
    simp only [List.singleton_append, readHead, ofInitial_initialByte (show n < 32 by omega),
      information_initialByte (show n < 32 by omega), hn, if_true, hmod]
  · split
    · exact ⟨24, hwide rfl (by omega)⟩
    · split
      · exact ⟨25, hwide rfl (by omega)⟩
      · split
        · exact ⟨26, hwide rfl (by omega)⟩
        · exact ⟨27, hwide rfl rfl⟩

theorem writeHead_ne_nil (kind : Kind) (n : Nat) : writeHead kind n ≠ [] := by
  unfold writeHead
  repeat' split
  all_goals simp

end RegisterMachine.Cbor
