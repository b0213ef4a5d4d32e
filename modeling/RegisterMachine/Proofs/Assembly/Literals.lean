import RegisterMachine.Proofs.Assembly.Canonical
import RegisterMachine.Proofs.Machine.Decision

/-!
# Numbers in texts and in operands

A number is written as a sign, which may be left out, and digits, which count by their places. The
assembler reads one from a token of the text, and the machine reads one again from an operand of an
instruction. Both take exactly the numbers with 32 bits, whatever the length of the token.
-/

set_option autoImplicit false

namespace RegisterMachine

namespace Decimal

/-! ### Digits and signs -/

/-- The number that digits make: each counts by its distance from the last. -/
def placeValue : List Char → Nat
  | [] => 0
  | c :: rest => (c.toNat - '0'.toNat) * 10 ^ rest.length + placeValue rest

/-- Digits that are added up from the left count by their places. -/
theorem ofDigitChars_eq_placeValue (digits : List Char) :
    Nat.ofDigitChars 10 digits 0 = placeValue digits := by
  induction digits with
  | nil => rfl
  | cons c rest ih =>
    rw [Nat.ofDigitChars_cons, Nat.ofDigitChars_eq_ofDigitChars_zero, ih, placeValue, Nat.mul_zero,
      Nat.zero_add, Nat.mul_comm]

theorem isDigit_iff {c : Char} : c.isDigit = true ↔ '0' ≤ c ∧ c ≤ '9' := by
  unfold Char.isDigit
  rw [Bool.and_eq_true, decide_eq_true_iff, decide_eq_true_iff]
  exact Iff.rfl

inductive Sign where
  | absent
  | plus
  | minus
  deriving DecidableEq, Repr

namespace Sign

def chars : Sign → List Char
  | .absent => []
  | .plus => ['+']
  | .minus => ['-']

def apply : Sign → Nat → Int
  | .absent, n => n
  | .plus, n => n
  | .minus, n => -n

end Sign

/-- The token is at most one sign and at least one digit, and the digits with the sign make `n`. -/
def Represents (token : String) (n : Int) : Prop :=
  ∃ (sign : Sign) (digits : List Char), token.toList = sign.chars ++ digits ∧ digits ≠ [] ∧
    (∀ c ∈ digits, '0' ≤ c ∧ c ≤ '9') ∧ sign.apply (placeValue digits) = n

theorem Represents.of_isDigit {token : String} {digits : List Char} (sign : Sign)
    (hchars : token.toList = sign.chars ++ digits) (hne : digits ≠ [])
    (hall : ∀ c ∈ digits, c.isDigit = true) :
    Represents token (sign.apply (Nat.ofDigitChars 10 digits 0)) :=
  ⟨sign, digits, hchars, hne, fun c hc => isDigit_iff.mp (hall c hc),
    by rw [ofDigitChars_eq_placeValue]⟩

theorem denotes_iff {token : String} {n : Int} : Denotes token.toList n ↔ Represents token n := by
  constructor
  · intro h
    generalize hchars : token.toList = chars at h
    cases h with
    | unsigned hne hall => exact .of_isDigit .absent hchars hne hall
    | plus hne hall => exact .of_isDigit .plus hchars hne hall
    | minus hne hall => exact .of_isDigit .minus hchars hne hall
  · rintro ⟨sign, digits, hchars, hne, hdigits, rfl⟩
    have hall : ∀ c ∈ digits, c.isDigit = true := fun c hc => isDigit_iff.mpr (hdigits c hc)
    rw [hchars, ← ofDigitChars_eq_placeValue]
    cases sign with
    | absent => exact .unsigned hne hall
    | plus => exact .plus hne hall
    | minus => exact .minus hne hall

theorem numeral_iff {token : String} {n : Int} :
    Numeral token n ↔ Represents token n ∧ -2 ^ 31 ≤ n ∧ n < 2 ^ 31 :=
  and_congr denotes_iff Iff.rfl

/-! ### Readers -/

/-- What is made of a token: the number with 32 bits that it represents, a refusal if there is
none. -/
structure ReadsAs {ε : Type} (result : Except ε Int64) (token : String) (refusal : ε) : Prop where
  ok : ∀ n : Int, result.map Int64.toInt = .ok n ↔
    Represents token n ∧ -2 ^ 31 ≤ n ∧ n < 2 ^ 31
  error : (¬ ∃ n : Int, Represents token n ∧ -2 ^ 31 ≤ n ∧ n < 2 ^ 31) → result = .error refusal

variable {ε : Type} {result : Except ε Int64} {token : String} {refusal : ε}

theorem map_toInt_eq_ok {n : Int} :
    result.map Int64.toInt = .ok n ↔ ∃ m, result = .ok m ∧ m.toInt = n := by
  cases result <;> simp [Except.map]

/-- **A reader that goes by `readInt32?` takes exactly the numbers with 32 bits.** -/
theorem ReadsAs.of_readInt32? (accepts : ∀ n, result = .ok n ↔ readInt32? token = some n)
    (refuses : readInt32? token = none → result = .error refusal) :
    ReadsAs result token refusal := by
  constructor
  · intro n
    rw [map_toInt_eq_ok, ← numeral_iff]
    constructor
    · rintro ⟨m, hm, rfl⟩
      obtain ⟨v, hv, rfl⟩ := readInt32?_eq_some.mp ((accepts m).mp hm)
      rw [toInt_ofInt hv.2]
      exact hv
    · intro hn
      exact ⟨.ofInt n, (accepts _).mpr (readInt32?_eq_some.mpr ⟨n, hn, rfl⟩), toInt_ofInt hn.2⟩
  · intro hnone
    refine refuses (Option.eq_none_iff_forall_ne_some.mpr fun m hm => hnone ?_)
    obtain ⟨v, hv, -⟩ := readInt32?_eq_some.mp hm
    exact ⟨v, numeral_iff.mp hv⟩

theorem ReadsAs.ofInt {n : Int} (h : ReadsAs result (ofInt n) refusal) (fits : FitsInt32 n) :
    result.map Int64.toInt = .ok n := by
  refine (h.ok n).mpr (numeral_iff.mp ⟨?_, fits⟩)
  exact readInt?_eq_some.mp (readInt?_ofInt n)

end Decimal

open Decimal (ReadsAs)

theorem Assembly.readsAs_resolveNumber (token : String) :
    ReadsAs (resolveNumber token) token (.invalidNumber token) := by
  refine .of_readInt32? (fun _ => resolveNumber_eq_ok) fun hnone => ?_
  simp only [resolveNumber, hnone]

theorem Machine.readsAs_operandNumber {i : Instruction} {slot : Fin 3} (given : i.arg slot ≠ "") :
    ReadsAs (operandNumber i slot) (i.arg slot) (.malformedImmediate (i.arg slot)) := by
  refine .of_readInt32? (fun _ => operandNumber_eq_ok) fun hnone => ?_
  rw [operandNumber, operandToken, if_neg given, Checks.ok_bind]
  simp only [hnone]

/-- **The assembler and the machine read the same numbers, and each exactly.** A token is taken for
the number with 32 bits that it represents and refused if there is none, however many digits it
has. So every such number is read back from how it is written. -/
theorem numbers_read_alike :
    (∀ token, ReadsAs (Assembly.resolveNumber token) token (.invalidNumber token)) ∧
    (∀ (i : Instruction) (slot : Fin 3), i.arg slot ≠ "" →
      ReadsAs (Machine.operandNumber i slot) (i.arg slot) (.malformedImmediate (i.arg slot))) ∧
    (∀ (i : Instruction) (slot : Fin 3),
      (Machine.operandNumber i slot).toOption = (Assembly.resolveNumber (i.arg slot)).toOption) ∧
    ∀ n : Int32,
      (Assembly.resolveNumber (Decimal.ofInt n.toInt)).map Int64.toInt = .ok n.toInt ∧
      ∀ (i : Instruction) (slot : Fin 3), i.arg slot = Decimal.ofInt n.toInt →
        (Machine.operandNumber i slot).map Int64.toInt = .ok n.toInt := by
  refine ⟨Assembly.readsAs_resolveNumber, fun _ _ => Machine.readsAs_operandNumber, ?_, ?_⟩
  · intro i slot
    ext n
    rw [Checks.toOption_eq_some, Checks.toOption_eq_some, Machine.operandNumber_eq_ok,
      Assembly.resolveNumber_eq_ok]
  · intro n
    have fits := Decimal.fitsInt32_toInt n
    refine ⟨(Assembly.readsAs_resolveNumber _).ofInt fits, fun i slot written => ?_⟩
    have given : i.arg slot ≠ "" := by
      rw [written]
      exact Decimal.ofInt_ne_empty _
    have reads := Machine.readsAs_operandNumber given
    rw [written] at reads
    exact reads.ofInt fits

/-- Loads the lowest number, written with zeros in front. -/
def loadLowest : Instruction :=
  .ofArgs .li ["$t1", "-0002147483648"] 0

/-- The lowest number is read in both places; without the sign it would be one too high. -/
theorem numbers_read_alike_lowest :
    loadLowest.arg 1 ≠ "" ∧
    (Machine.operandNumber loadLowest 1).map Int64.toInt = .ok (-2147483648) ∧
    (Assembly.resolveNumber "-0002147483648").map Int64.toInt = .ok (-2147483648) ∧
    Assembly.resolveNumber "+2147483648" = .error (.invalidNumber "+2147483648") := by
  have given : loadLowest.arg 1 ≠ "" := by decide
  have digits : "0002147483648".toList.all Char.isDigit = true := by decide
  have represents : Decimal.Represents "-0002147483648" (-2147483648) :=
    ⟨.minus, "0002147483648".toList, by decide, by decide,
      fun c hc => Decimal.isDigit_iff.mp (List.all_eq_true.mp digits c hc), by decide⟩
  obtain ⟨assembler, machine, -⟩ := numbers_read_alike
  refine ⟨given, ?_, ?_, by decide⟩
  · exact ((machine loadLowest 1 given).ok _).mpr ⟨represents, by decide, by decide⟩
  · exact ((assembler _).ok _).mpr ⟨represents, by decide, by decide⟩

end RegisterMachine
