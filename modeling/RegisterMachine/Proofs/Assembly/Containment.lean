import RegisterMachine.Proofs.Assembly.Resolution
import RegisterMachine.Proofs.Assembly.Soundness
import RegisterMachine.Proofs.Machine.Effects

/-!
# Programs that jump to labels only

A label stands for a place inside the program or just behind it. If all targets are labels, returns
go through the return register and only calls write that register, then the machine never leaves
these places: the program counter and the return address stay between zero and the length of the
code. The one place without an instruction is the end.
-/

set_option autoImplicit false

namespace RegisterMachine

open Checks Machine Assembly

/-- A place in a program of `length` instructions, or just behind it. -/
def InProgram (length : Nat) (n : Int64) : Prop :=
  0 ≤ n.toInt ∧ n.toInt ≤ length

/-! ### The fetch -/

section Fetch

variable {m : Machine} {i : Instruction}

/-- Inside a program, nothing can be fetched at its end only. -/
theorem toInt_pc_of_fetch?_eq_none (hpc : InProgram m.code.size m.pc) (h : m.fetch? = none) :
    m.pc.toInt = m.code.size := by
  obtain ⟨hpos, hle⟩ := hpc
  have hzero : (0 : Int64).toInt = 0 := rfl
  have hnonneg : ¬ m.pc < 0 := by
    rw [Int64.lt_iff_toInt_lt, hzero]
    omega
  rw [fetch?, if_neg hnonneg, Array.getElem?_eq_none_iff, Int64.toNatClampNeg] at h
  omega

variable {rs : Registers} {arena : Arena} {cause : Cause} {slot : Fin 3}

theorem operandToken_kind (h : operandToken i slot = .error cause) :
    cause.kind = .invalidOperand := by
  unfold operandToken at h
  split at h
  · rw [← Except.error.inj h]
    rfl
  · cases h

theorem operandRegister_kind (h : operandRegister i slot = .error cause) :
    cause.kind = .invalidOperand := by
  rcases bind_eq_error.mp h with h | ⟨token, -, h⟩
  · exact operandToken_kind h
  · split at h
    · cases h
    · rw [← Except.error.inj h]
      rfl

theorem operandNumber_kind (h : operandNumber i slot = .error cause) :
    cause.kind = .invalidOperand ∨ cause.kind = .malformedImmediate := by
  rcases bind_eq_error.mp h with h | ⟨token, -, h⟩
  · exact .inl (operandToken_kind h)
  · split at h
    · cases h
    · rw [← Except.error.inj h]
      exact .inr rfl

/-- No instruction is refused as one that is not there. -/
theorem Refuses.kind_ne (h : Refuses rs arena i (.fault cause)) :
    cause.kind ≠ .instructionOutOfRange := by
  cases h with
  | register reads unread => simp [operandRegister_kind unread]
  | number reads unread => rcases operandNumber_kind unread with hk | hk <;> simp [hk]
  | _ => simp [Cause.kind]

/-- A step that faults for want of an instruction has found none at the program counter. -/
theorem Stepped.fetch?_eq_none {mode : TraceMode} {m' : Machine} {events : List Event} {f : Fault}
    (running : m.isRunning = true) (h : Stepped mode m m' events) (hf : m'.status = .faulted f)
    (hkind : f.kind = .instructionOutOfRange) :
    m.fetch? = none ∧ f.pc = m.pc ∧ m'.pc = m.pc := by
  cases h with
  | idle stopped =>
    rw [running] at stopped
    cases stopped
  | refused _ gap next =>
    subst next
    obtain rfl := Status.faulted.inj hf
    rcases checkGap_eq_error gap with hk | hk <;> exact absurd (hk.symm.trans hkind) (by simp)
  | lost _ _ fetched next =>
    subst next
    obtain rfl := Status.faulted.inj hf
    exact ⟨fetched, rfl, rfl⟩
  | faulted _ _ _ refusal next =>
    subst next
    obtain rfl := Status.faulted.inj hf
    exact absurd hkind (Refuses.of_plan refusal).kind_ne
  | overrun _ _ _ _ next =>
    subst next
    obtain rfl := Status.faulted.inj hf
    cases hkind
  | executed _ _ _ _ next =>
    subst next
    exact absurd hf (executed_status_ne running _ _ f)

end Fetch

/-! ### Steps -/

/-- An instruction that does not lead out of a program of `length` instructions, as long as the
return register does not. -/
structure Confined (length : Nat) (i : Instruction) : Prop where
  target : ∀ {slot : Fin 3} {t : Int64}, (shape i.op)[slot.val]? = some .target →
    Decimal.readInt32? (i.arg slot) = some t → InProgram length t
  returns : i.op = .jr → Register.ofToken? i.arg1 = some .ra
  link : i.op ≠ .jal → i.destination? ≠ some .ra

/-- The program counter and the return address are places of the program. -/
structure Contained (length : Nat) (m : Machine) : Prop where
  counter : InProgram length m.pc
  link : ∀ {n : Int64}, m.registers.ra = some n → InProgram length n

namespace Contained

variable {m : Machine} {i : Instruction} {change : Change}

theorem load (size : Int64) (code : Array Instruction) :
    Contained code.size (Machine.load size code) where
  counter := by
    show 0 ≤ (0 : Int64).toInt ∧ (0 : Int64).toInt ≤ code.size
    have hzero : (0 : Int64).toInt = 0 := rfl
    omega
  link h := by cases h

/-- The instruction behind a fetched one may be the end of the program. -/
theorem advanced (h : Contained m.code.size m) (hsize : m.code.size < 2 ^ 63)
    (fetched : m.fetch? = some i) : Contained m.code.size m.started.advance where
  counter := by
    have hpc := toInt_pc_of_fetch? fetched
    show 0 ≤ (m.pc + 1).toInt ∧ (m.pc + 1).toInt ≤ m.code.size
    rw [Word.toInt_add_one (by omega)]
    omega
  link := h.link

/-- **A confined instruction leads to a place of the program.** -/
theorem applied (h : Contained m.code.size m) (hsize : m.code.size < 2 ^ 63)
    (hi : Confined m.code.size i) (fetched : m.fetch? = some i)
    (rule : Decides m.registers m.arena i change) :
    Contained m.code.size (m.started.advance.apply change) := by
  have ready := h.advanced hsize fetched
  constructor
  · rw [pc_apply]
    cases ht : change.target? with
    | none => exact ready.counter
    | some t =>
      rcases rule.target?_eq ht with ⟨slot, hslot, number⟩ | ⟨op, r, names, holds⟩
      · exact hi.target hslot number
      · obtain rfl := Option.some.inj ((hi.returns op).symm.trans names)
        exact h.link holds
  · intro n hn
    by_cases hop : i.op = .jal
    · -- A call leaves the place behind itself, where the counter already stands.
      cases rule with
      | call op number =>
        obtain rfl := Option.some.inj hn
        exact ready.counter
      | _ => simp_all
    · have hkept : (m.started.advance.apply change).registers.get .ra = m.registers.get .ra :=
        get_registers_apply _ _ (by rw [rule.destination?_eq]; exact hi.link hop)
      exact h.link (hkept.symm.trans hn)

/-- **A step of a program of confined instructions stays in the program.** -/
theorem step {mode : TraceMode} {m' : Machine} {events : List Event}
    (h : Contained m.code.size m) (hsize : m.code.size < 2 ^ 63)
    (hcode : ∀ i ∈ m.code, Confined m.code.size i) (taken : Stepped mode m m' events) :
    Contained m.code.size m' := by
  cases taken with
  | idle => exact h
  | refused _ _ next => rw [next]; exact ⟨h.counter, h.link⟩
  | lost _ _ _ next => rw [next]; exact ⟨h.counter, h.link⟩
  | faulted _ _ fetched _ next =>
    have ready := h.advanced hsize fetched
    rw [next]
    exact ⟨ready.counter, ready.link⟩
  | overrun _ _ fetched _ next =>
    have ready := h.advanced hsize fetched
    rw [next]
    exact ⟨ready.counter, ready.link⟩
  | executed _ _ fetched plan next =>
    have done := h.applied hsize (hcode _ (mem_of_fetch? fetched)) fetched (decides_of_plan plan)
    rw [← next] at done
    exact ⟨by simpa using done.counter, fun hn => done.link (by simpa using hn)⟩

/-- A run of a program of confined instructions stays in the program. -/
theorem run {mode : TraceMode} {size : Int64} {code : Array Instruction} {ts : List Transition}
    (hsize : code.size < 2 ^ 63) (hcode : ∀ i ∈ code, Confined code.size i)
    (run : Run mode (Machine.load size code) ts m) : Contained code.size m := by
  refine run.invariant (P := fun _ m => Contained code.size m) (Contained.load size code) ?_
  intro ts m m' events earlier ih taken
  have hsame : m.code = code := earlier.code_eq
  rw [← hsame] at hsize hcode ih ⊢
  exact ih.step hsize hcode taken

end Contained

/-! ### Label-only programs -/

namespace Assembly

def OperandText.isLabel : OperandText → Bool
  | .name _ => true
  | _ => false

/-- Where the control flow of a listing and its code goes: to labels and, by way of the return
register, behind the calls. -/
structure LabelOnly (lines : List Line) (code : List Instruction) : Prop where
  targets : ∀ s ∈ statements lines, ∀ entry ∈ (shape (opcodeOf s.mnemonic)).zip s.operands,
    entry.1 = .target → entry.2.text.isLabel = true
  returns : ∀ i ∈ code, i.op = .jr → Register.ofToken? i.arg1 = some .ra
  link : ∀ i ∈ code, i.op ≠ .jal → i.destination? ≠ some .ra

/-- A target that is written as a label is read as a place of the program. -/
theorem inProgram_of_label {known : Labels} {s : Statement} {i : Instruction} {length : Nat}
    (hlength : length < 2 ^ 31)
    (hknown : ∀ label index, known.lookup label = some index → index ≤ length)
    (h : resolveStatement known s = .ok i)
    (labels : ∀ entry ∈ (shape (opcodeOf s.mnemonic)).zip s.operands,
      entry.1 = .target → entry.2.text.isLabel = true)
    {slot : Fin 3} {t : Int64} (hslot : (shape i.op)[slot.val]? = some .target)
    (number : Decimal.readInt32? (i.arg slot) = some t) : InProgram length t := by
  obtain ⟨operand, offset, hoperand, hresolved⟩ := resolveStatement_slot h hslot
  have hlabel : operand.text.isLabel = true := by
    refine labels (.target, operand) (List.mem_of_getElem? (i := slot.val) ?_) rfl
    exact List.getElem?_zip_eq_some.mpr ⟨by rw [← resolveStatement_op h]; exact hslot, hoperand⟩
  cases htext : operand.text with
  | name label =>
    rw [htext] at hresolved
    obtain ⟨index, hindex, htoken⟩ := resolveOperand_label hresolved
    have hle := hknown label index hindex
    have fits : Decimal.FitsInt32 index := ⟨by omega, by omega⟩
    have hread : Decimal.readInt32? (i.arg slot) = some (.ofInt index) := by
      rw [htoken, ← Decimal.ofInt_natCast, Decimal.readInt32?_ofInt fits]
    obtain rfl := Option.some.inj (hread.symm.trans number)
    show 0 ≤ (Int64.ofInt index).toInt ∧ (Int64.ofInt index).toInt ≤ length
    rw [Decimal.toInt_ofInt fits]
    omega
  | _ => rw [htext] at hlabel; cases hlabel

/-- **The instructions of a label-only program are confined to it.** -/
theorem LabelOnly.confined {source : String} {lines : List Line} {code : List Instruction}
    (hcount : statementCount source < 2 ^ 31) (read : readListing source = .ok lines)
    (assembled : assemble source = .ok code) (h : LabelOnly lines code) :
    ∀ i ∈ code, Confined code.length i := by
  obtain ⟨lines', parsed, hresolve⟩ := assemble_eq_ok.mp assembled
  obtain rfl := Except.ok.inj ((readListing_of_parse parsed).symm.trans read)
  simp only [resolve, bind_eq_ok] at hresolve
  obtain ⟨known, hlabels, hlines⟩ := hresolve
  have hlength := length_resolveLines hlines
  rw [statementCount_eq_length assembled] at hcount
  intro i hi
  obtain ⟨s, hs, hstatement⟩ := exists_statement hlines hi
  refine ⟨?_, h.returns i hi, h.link i hi⟩
  intro slot t hslot number
  refine inProgram_of_label hcount (fun label index hl => ?_) hstatement (h.targets s hs) hslot
    number
  rw [hlength]
  exact labels_le hlabels hl

end Assembly

/-- **A label-only program stays inside its code**, on every arena and after any number of steps:
the program counter never leaves it, and the only place where no instruction is found is its
end. -/
theorem label_only_contained {source : String} {lines : List Line} {code : List Instruction}
    {mode : TraceMode} {size : Int64} {ts : List Transition} {m : Machine}
    (hcount : statementCount source < 2 ^ 31) (read : readListing source = .ok lines)
    (assembled : assemble source = .ok code) (disciplined : LabelOnly lines code)
    (run : Run mode (Machine.load size code.toArray) ts m) :
    (0 ≤ m.pc.toInt ∧ m.pc.toInt ≤ code.length) ∧
      ∀ f, m.status = .faulted f → f.kind = .instructionOutOfRange →
        f.pc.toInt = code.length ∧ m.pc = f.pc := by
  have hconfined := disciplined.confined hcount read assembled
  rw [statementCount_eq_length assembled] at hcount
  have hcode : ∀ i ∈ code.toArray, Confined code.toArray.size i := fun i hi =>
    hconfined i (List.mem_toArray.mp hi)
  have hsize : code.toArray.size < 2 ^ 63 := by
    rw [List.size_toArray]
    omega
  refine ⟨(Contained.run hsize hcode run).counter, ?_⟩
  intro f hf hkind
  obtain ⟨earlier, t, -, before, running, rfl, h⟩ := run.exists_faulting rfl hf
  obtain ⟨hnone, hpc, hpc'⟩ := h.fetch?_eq_none running hf hkind
  have hsame : t.before.code = code.toArray := before.code_eq
  have hinside := (Contained.run hsize hcode before).counter
  rw [← hsame] at hinside
  have hend := toInt_pc_of_fetch?_eq_none hinside hnone
  rw [hsame, List.size_toArray] at hend
  exact ⟨by rw [hpc, hend], by rw [hpc, hpc']⟩

/-- Calls a subroutine and goes on at a label behind its last statement. -/
def subroutineSource : String :=
  "jal f\nb end\nf: li $a0 7\njr $ra\nend:"

def subroutineCode : List Instruction :=
  [.ofArgs .jal ["2"] 0, .ofArgs .b ["4"] 0, .ofArgs .li ["$a0", "7"] 0, .ofArgs .jr ["$ra"] 0]

/-- The targets of the subroutine and of the end are labels. -/
theorem labelOnly_subroutine :
    ∃ lines, readListing subroutineSource = .ok lines ∧ LabelOnly lines subroutineCode := by
  have htargets : ((readListing subroutineSource).toOption.map fun lines =>
      decide (∀ s ∈ statements lines, ∀ entry ∈ (shape (opcodeOf s.mnemonic)).zip s.operands,
        entry.1 = .target → entry.2.text.isLabel = true)) = some true := by decide +kernel
  obtain ⟨lines, hread, hlabels⟩ := Option.map_eq_some_iff.mp htargets
  exact ⟨lines, toOption_eq_some.mp hread, of_decide_eq_true hlabels, by decide, by decide⟩

/-- The machine returns from the subroutine, jumps to the end and finds no instruction there. -/
theorem label_only_contained_subroutine :
    statementCount subroutineSource < 2 ^ 31 ∧
      assemble subroutineSource = .ok subroutineCode ∧
      ∃ lines ts m f, readListing subroutineSource = .ok lines ∧ LabelOnly lines subroutineCode ∧
        Run .off (Machine.load 4 subroutineCode.toArray) ts m ∧ m.status = .faulted f ∧
        f.kind = .instructionOutOfRange ∧ m.registers.ra = some 1 ∧
        (0 ≤ m.pc.toInt ∧ m.pc.toInt ≤ subroutineCode.length) ∧
        f.pc.toInt = subroutineCode.length ∧ m.pc = f.pc := by
  have hcount : statementCount subroutineSource < 2 ^ 31 := by decide +kernel
  have assembled : assemble subroutineSource = .ok subroutineCode :=
    toOption_eq_some.mp (by decide +kernel)
  obtain ⟨lines, read, disciplined⟩ := labelOnly_subroutine
  have hafter : ((Machine.load 4 subroutineCode.toArray).after? .off 5).map
      (fun m => (m.status, m.registers.ra)) =
        some (.faulted (.ofCause (.noInstruction 4 4) 4 {}), some 1) := by decide +kernel
  obtain ⟨m, hm, hstate⟩ := Option.map_eq_some_iff.mp hafter
  obtain ⟨hstatus, hlink⟩ := Prod.mk.inj hstate
  obtain ⟨ts, run⟩ := Run.of_after? hm
  obtain ⟨hinside, hend⟩ := label_only_contained hcount read assembled disciplined run
  exact ⟨hcount, assembled, lines, ts, m, _, read, disciplined, run, hstatus, rfl, hlink, hinside,
    hend _ hstatus rfl⟩

end RegisterMachine
