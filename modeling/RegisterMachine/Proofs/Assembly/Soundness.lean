import RegisterMachine.Proofs.Assembly.Canonical
import RegisterMachine.Proofs.Machine.Refusal
import RegisterMachine.Proofs.Machine.Stepping

/-!
# Assembled programs fault for dynamic reasons only

The operands of a canonical instruction can be read in every slot that its execution reads. The
program never changes, so whatever a machine fetches from an assembled program is canonical, and
of the faults that blame the instruction itself only one is left: a number that is no character.
-/

set_option autoImplicit false

namespace RegisterMachine

open Checks Machine Assembly

/-! ### The operands of canonical instructions -/

theorem Register.ofToken?_name (r : Register) : Register.ofToken? r.name = some r := by
  cases r <;> decide

section Operands

variable {i : Instruction} {slot : Fin 3} {cause : Cause}

theorem operandRegister_of_canonical (h : Canonical i) (reads : ReadsRegister i.op slot) :
    ∃ r, operandRegister i slot = .ok r := by
  have hfits := h.slots slot
  rcases reads with hs | hs
  all_goals
    rw [hs] at hfits
    obtain ⟨r, hr⟩ := hfits
    exact ⟨r, operandRegister_eq_ok.mpr (by rw [hr, Register.ofToken?_name])⟩

theorem operandNumber_of_canonical (h : Canonical i) (reads : ReadsNumber i.op slot) :
    ∃ n, operandNumber i slot = .ok n := by
  have hfits := h.slots slot
  rcases reads with hs | hs
  all_goals
    rw [hs] at hfits
    obtain ⟨n, hn, ht⟩ := hfits
    exact ⟨.ofInt n, operandNumber_eq_ok.mpr (by rw [ht, Decimal.readInt32?_ofInt hn])⟩

end Operands

/-- The numbers of characters: surrogates are left out. -/
def ScalarValue (n : Int) : Prop :=
  0 ≤ n ∧ n < 0xD800 ∨ 0xDFFF < n ∧ n < 0x110000

instance (n : Int) : Decidable (ScalarValue n) :=
  inferInstanceAs (Decidable (_ ∨ _))

theorem character?_eq_none {n : Int64} : character? n = none ↔ ¬ ScalarValue n.toInt := by
  have hnat : (n.toNatClampNeg : Int) = max n.toInt 0 := by
    rw [Int64.toNatClampNeg, Int.toNat_eq_max]
  have hzero : (0 : Int64) ≤ n ↔ 0 ≤ n.toInt := Int64.le_iff_toInt_le
  unfold character? ScalarValue Nat.isValidChar
  rw [ite_eq_right_iff, hzero]
  simp only [reduceCtorEq, imp_false]
  omega

/-- A fault of `i` that says nothing against its opcode and its operand tokens. -/
structure Dynamic (rs : Registers) (i : Instruction) (kind : FaultKind) : Prop where
  opcode : kind ≠ .unknownOpcode
  immediate : kind ≠ .malformedImmediate
  /-- The one operand that can be wrong is a number that should be a character. -/
  operand : kind = .invalidOperand → i.op = .printchar ∧
    ∃ r n, Register.ofToken? i.arg1 = some r ∧ rs.get r = some n ∧ ¬ ScalarValue n.toInt

theorem Dynamic.of_kind {rs : Registers} {i : Instruction} {kind : FaultKind}
    (h : kind = .uninitializedRead ∨ kind = .memoryAccessFault ∨ kind = .divisionByZero ∨
      kind = .instructionOutOfRange) : Dynamic rs i kind := by
  rcases h with rfl | rfl | rfl | rfl <;> exact ⟨by simp, by simp, by simp⟩

/-- **A canonical instruction is refused for dynamic reasons only.** -/
theorem Refuses.dynamic {rs : Registers} {arena : Arena} {i : Instruction} {cause : Cause}
    (hi : Canonical i) (h : Refuses rs arena i (.fault cause)) : Dynamic rs i cause.kind := by
  cases h with
  | opcode unknown =>
    rw [hi.valid] at unknown
    cases unknown
  | register reads unread =>
    obtain ⟨r, hr⟩ := operandRegister_of_canonical hi reads
    rw [hr] at unread
    cases unread
  | number reads unread =>
    obtain ⟨n, hn⟩ := operandNumber_of_canonical hi reads
    rw [hn] at unread
    cases unread
  | character op names holds none =>
    exact ⟨by simp [Cause.kind], by simp [Cause.kind],
      fun _ => ⟨op, _, _, names, holds, character?_eq_none.mp none⟩⟩
  | _ => exact .of_kind (by simp [Cause.kind])

/-! ### Runs -/

theorem checkGap_eq_error {m : Machine} {cause : Cause} (h : m.checkGap = .error cause) :
    cause.kind = .uninitializedRead ∨ cause.kind = .memoryAccessFault := by
  have absent : ∀ {r}, m.registers.value r = .error cause → cause.kind = .uninitializedRead := by
    intro r hr
    unfold Registers.value at hr
    split at hr
    · cases hr
    · rw [← Except.error.inj hr]
      rfl
  simp only [checkGap, bind_eq_error] at h
  obtain hhp | ⟨hp, -, hsp | ⟨sp, -, h⟩⟩ := h
  · exact .inl (absent hhp)
  · exact .inl (absent hsp)
  · split at h
    · rw [← Except.error.inj h]
      exact .inr rfl
    · cases h

/-- A step of canonical code faults for dynamic reasons only. -/
theorem dynamic_step {mode : TraceMode} {m m' : Machine} {events : List Event} {f : Fault}
    (hcode : ∀ i ∈ m.code, Canonical i) (running : m.isRunning = true)
    (h : Stepped mode m m' events) (hf : m'.status = .faulted f) :
    Dynamic m'.registers f.instruction f.kind := by
  cases h with
  | idle stopped =>
    rw [running] at stopped
    cases stopped
  | refused _ gap next =>
    subst next
    obtain rfl := Status.faulted.inj hf
    exact .of_kind ((checkGap_eq_error gap).imp_right .inl)
  | lost _ _ _ next =>
    subst next
    obtain rfl := Status.faulted.inj hf
    exact .of_kind (by simp [Fault.ofCause, Cause.kind])
  | faulted _ _ fetched refusal next =>
    subst next
    obtain rfl := Status.faulted.inj hf
    exact (Refuses.of_plan refusal).dynamic (hcode _ (mem_of_fetch? fetched))
  | overrun _ _ _ _ next =>
    subst next
    obtain rfl := Status.faulted.inj hf
    exact .of_kind (by simp [Fault.ofCause, Cause.kind])
  | @executed i change after _ _ _ _ next =>
    have hafter : after.status = .running := by
      rw [next, apply_status]
      exact of_decide_eq_true running
    exact absurd hf (settled_status_ne hafter i f)

/-- A run of canonical code faults for dynamic reasons only. -/
theorem dynamic_run {code : Array Instruction} {mode : TraceMode} {size : Int64}
    {ts : List Transition} {m : Machine} {f : Fault} (hcode : ∀ i ∈ code, Canonical i)
    (run : Run mode (Machine.load size code) ts m) (hf : m.status = .faulted f) :
    Dynamic m.registers f.instruction f.kind := by
  obtain ⟨earlier, t, -, before, running, rfl, h⟩ := run.exists_faulting rfl hf
  refine dynamic_step (fun i hi => hcode i ?_) running h hf
  rwa [before.code_eq] at hi

/-- **Assembled programs fault for dynamic reasons only**, on every arena and after any number of
steps. -/
theorem assembled_faults {source : String} {code : List Instruction} {mode : TraceMode}
    {size : Int64} {ts : List Transition} {m : Machine} {f : Fault}
    (hcount : statementCount source < 2 ^ 31) (assembled : assemble source = .ok code)
    (run : Run mode (Machine.load size code.toArray) ts m) (hf : m.status = .faulted f) :
    Dynamic m.registers f.instruction f.kind := by
  refine dynamic_run (fun i hi => ?_) run hf
  exact assemble_canonical hcount assembled i (List.mem_toArray.mp hi)

/-- Prints a surrogate, which is no character. -/
def surrogateSource : String :=
  "li $a0, 55296\nb end\nlw $a0 -1($sp)\nend: printchar $a0"

def surrogateCode : List Instruction :=
  [.ofArgs .li ["$a0", "55296"] 0, .ofArgs .b ["3"] 0, .memory .lw "$a0" (-1) "$sp",
    .ofArgs .printchar ["$a0"] 0]

/-- The machine that has just jumped to the last instruction. -/
def beforeSurrogate : Machine :=
  let m := Machine.load 4 surrogateCode.toArray
  { m with registers := m.registers.set .a0 (some 55296), pc := 3, steps := 2, begun := true }

theorem run_beforeSurrogate :
    ∃ ts, Run .off (Machine.load 4 surrogateCode.toArray) ts beforeSurrogate := by
  have first : ∃ ts, Run .off (Machine.load 4 surrogateCode.toArray) ts
      { beforeSurrogate with pc := 1, steps := 1 } :=
    Run.extend ⟨[], .start⟩ (by decide +kernel)
  exact Run.extend first (by decide +kernel)

/-- A surrogate faults as an invalid operand, of `printchar`. -/
theorem assembled_faults_surrogate :
    statementCount surrogateSource < 2 ^ 31 ∧ assemble surrogateSource = .ok surrogateCode ∧
      ∃ ts m f, Run .off (Machine.load 4 surrogateCode.toArray) ts m ∧ m.status = .faulted f ∧
        f.kind = .invalidOperand ∧ Dynamic m.registers f.instruction f.kind := by
  have hcount : statementCount surrogateSource < 2 ^ 31 := by decide +kernel
  have assembled : assemble surrogateSource = .ok surrogateCode :=
    toOption_eq_some.mp (by decide +kernel)
  obtain ⟨ts, run⟩ : ∃ ts, Run .off (Machine.load 4 surrogateCode.toArray) ts
      (beforeSurrogate.advance.fail
        (.ofCause (.notCharacter 55296) 3 (.ofArgs .printchar ["$a0"] 0))) :=
    Run.extend run_beforeSurrogate (by decide +kernel)
  exact ⟨hcount, assembled, ts, _, _, run, rfl, rfl, assembled_faults hcount assembled run rfl⟩

end RegisterMachine
