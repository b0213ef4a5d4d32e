import Mathlib.Data.Set.Insert
import RegisterMachine.Proofs.Machine.Heap
import RegisterMachine.Proofs.Machine.Refusal

/-!
# The classification of faults

A fault has a kind, exhibits conditions, and may stem from a refused arena access. The three tell
about each other: the conditions are that of the kind and, if the kind is a memory access fault,
exactly one finer condition, which also says whether an access was refused and where. The place of
a fault is the instruction fetched last, unless the machine stopped before it fetched one.
-/

set_option autoImplicit false

namespace RegisterMachine

open Checks Machine

/-- The conditions that a fault exhibits. -/
def Fault.conditions (f : Fault) : Set Condition :=
  {c | f.exhibits c = true}

/-- The access was refused at an index of the arena. -/
def ArenaError.Inside (e : ArenaError) : Prop :=
  0 ≤ e.index ∧ e.index < e.size

instance (e : ArenaError) : Decidable e.Inside :=
  inferInstanceAs (Decidable (_ ∧ _))

/-- `f` is a memory access fault for the finer reason `x`, on an arena of `size` cells. -/
structure MemoryFault (size : Nat) (f : Fault) (x : Condition) : Prop where
  reason : x = .collision ∨ x = .outOfRange ∨ x = .uninitializedRead
  conditions : f.conditions = {.memoryAccess, x}
  /-- Only a load minds whether a cell has been written. -/
  load : x = .uninitializedRead → f.instruction.op = .lw
  access : f.arenaError?.isSome = true ↔ x ≠ .collision
  size : ∀ e, f.arenaError? = some e → e.size = size
  index : ∀ e, f.arenaError? = some e → (¬ e.Inside ↔ x = .outOfRange)

/-- What the kind of a fault tells, on an arena of `size` cells. -/
structure Classified (size : Nat) (f : Fault) : Prop where
  kind : f.kind ≠ .noFault ∧ f.kind ≠ .outOfRange
  /-- Every other fault exhibits the condition of its kind alone, and no access was refused. -/
  other : f.kind ≠ .memoryAccessFault →
    (∃ c, f.kind.condition? = some c ∧ f.conditions = {c}) ∧ f.arenaError? = none
  memory : f.kind = .memoryAccessFault → ∃ x, MemoryFault size f x

/-- The step stopped at `f` before it fetched an instruction. -/
structure StoppedBeforeFetch (t : Transition) (f : Fault) : Prop where
  instruction : f.instruction = {}
  pc : f.pc = t.before.pc ∧ t.after.pc = t.before.pc
  steps : t.after.steps = t.before.steps

/-- The step fetched the instruction that `f` names from `code`, at the place that `f` names. -/
structure StoppedAtInstruction (code : Array Instruction) (t : Transition) (f : Fault) : Prop where
  pc : f.pc = t.before.pc ∧ 0 ≤ f.pc
  instruction : code[f.pc.toNatClampNeg]? = some f.instruction
  steps : t.after.steps = t.before.steps + 1

/-! ### Causes -/

/-- The causes that the machine names, when an instruction with this opcode is to be executed on an
arena of `size` cells. -/
def Cause.Proper (size : Nat) (op : Opcode) : Cause → Prop
  | .memory e => e.size = size ∧
      (e.kind = .outOfRange ∧ ¬ e.Inside ∨ e.kind = .uninitializedRead ∧ e.Inside ∧ op = .lw)
  | .condition c => c = .divisionByZero
  | .remark _ => False
  | _ => True

section Causes

variable {size : Nat} {cause : Cause} {pc : Int64} {i : Instruction}

theorem mem_conditions_ofCause {c : Condition} :
    c ∈ (Fault.ofCause cause pc i).conditions ↔
      cause.kind.condition? = some c ∨ cause.condition? = some c := by
  simp [Fault.conditions, Fault.exhibits, Fault.ofCause, Cause.exhibits]

/-- A cause with a single condition, which is also that of its kind. -/
theorem classified_of_single {c : Condition} (hkind : cause.kind.condition? = some c)
    (hcause : cause.condition? = some c) (haccess : cause.arenaError? = none)
    (hmemory : c ≠ .memoryAccess) (hrange : c ≠ .outOfRange) :
    Classified size (Fault.ofCause cause pc i) := by
  have hne : ∀ k : FaultKind, k.condition? ≠ some c → (Fault.ofCause cause pc i).kind ≠ k := by
    rintro k hk rfl
    exact hk hkind
  refine ⟨⟨hne _ (by simp [FaultKind.condition?]), hne _ ?_⟩, fun _ => ⟨⟨c, hkind, ?_⟩, haccess⟩,
    fun hk => absurd hk (hne _ ?_)⟩
  · simpa [FaultKind.condition?] using hrange.symm
  · ext c'
    rw [mem_conditions_ofCause, hkind, hcause, or_self, Option.some.injEq, Set.mem_singleton_iff,
      eq_comm]
  · simpa [FaultKind.condition?] using hmemory.symm

/-- A memory access fault exhibits its own condition and that of its cause. -/
theorem conditions_of_memory {x : Condition} (hkind : cause.kind = .memoryAccessFault)
    (hcause : cause.condition? = some x) :
    (Fault.ofCause cause pc i).conditions = {.memoryAccess, x} := by
  ext c
  rw [mem_conditions_ofCause, hkind, hcause, FaultKind.condition?, Option.some.injEq,
    Option.some.injEq, Set.mem_insert_iff, Set.mem_singleton_iff, eq_comm, eq_comm (a := x)]

/-- A cause with the finer condition `x` of a memory access fault. -/
theorem classified_of_memory {x : Condition} (hkind : cause.kind = .memoryAccessFault)
    (hcause : cause.condition? = some x)
    (hreason : x = .collision ∨ x = .outOfRange ∨ x = .uninitializedRead)
    (hload : x = .uninitializedRead → i.op = .lw)
    (haccess : cause.arenaError?.isSome = true ↔ x ≠ .collision)
    (herror : ∀ e, cause.arenaError? = some e → e.size = size ∧ (¬ e.Inside ↔ x = .outOfRange)) :
    Classified size (Fault.ofCause cause pc i) := by
  have hk : (Fault.ofCause cause pc i).kind = .memoryAccessFault := hkind
  exact ⟨by simp [hk], fun hne => absurd hk hne, fun _ => ⟨x, hreason,
    conditions_of_memory hkind hcause, hload, haccess, fun e he => (herror e he).1,
    fun e he => (herror e he).2⟩⟩

/-- **A proper cause makes a well classified fault.** -/
theorem Cause.Proper.classified (h : cause.Proper size i.op) :
    Classified size (Fault.ofCause cause pc i) := by
  cases cause with
  | memory e =>
    obtain ⟨hsize, ⟨hkind, hout⟩ | ⟨hkind, hin, hload⟩⟩ := h
    · refine classified_of_memory (x := .outOfRange) rfl ?_ (by simp) (by simp) ?_ ?_
      · simp [Cause.condition?, hkind, FaultKind.condition?]
      · simp [Cause.arenaError?]
      · rintro e' he
        obtain rfl := Option.some.inj he
        exact ⟨hsize, iff_of_true hout rfl⟩
    · refine classified_of_memory (x := .uninitializedRead) rfl ?_ (by simp) (fun _ => hload) ?_ ?_
      · simp [Cause.condition?, hkind, FaultKind.condition?]
      · simp [Cause.arenaError?]
      · rintro e' he
        obtain rfl := Option.some.inj he
        exact ⟨hsize, iff_of_false (not_not_intro hin) (by simp)⟩
  | collision hp heap sp =>
    exact classified_of_memory rfl rfl (.inl rfl) (by simp) (by simp [Cause.arenaError?])
      (by simp [Cause.arenaError?])
  | allocationCollision index sp =>
    exact classified_of_memory rfl rfl (.inl rfl) (by simp) (by simp [Cause.arenaError?])
      (by simp [Cause.arenaError?])
  | condition c =>
    obtain rfl : c = .divisionByZero := h
    exact classified_of_single rfl rfl rfl (by simp) (by simp)
  | remark text => exact h.elim
  | _ => exact classified_of_single rfl rfl rfl (by simp) (by simp)

end Causes

/-! ### Refused instructions -/

section Refusals

variable {arena : Arena} {op : Opcode} {a : Int64} {e : ArenaError}

theorem proper_outside (h : ¬ arena.contains a) :
    Cause.Proper arena.size op (.memory (arena.outside a)) := by
  refine ⟨rfl, .inl ⟨rfl, ?_⟩⟩
  rwa [Arena.contains_iff] at h

/-- A read is refused outside the arena, or at a cell without a number. -/
theorem proper_read (h : arena.read a = .error e) : Cause.Proper arena.size .lw (.memory e) := by
  unfold Arena.read at h
  split at h
  · next hcell =>
    obtain rfl := Except.error.inj h
    refine proper_outside fun hin => ?_
    rw [← Arena.isSome_cell?, hcell] at hin
    cases hin
  · cases h
  · next hcell =>
    obtain rfl := Except.error.inj h
    exact ⟨rfl, .inr ⟨rfl, Arena.contains_iff.mp (Arena.contains_of_cell? hcell), rfl⟩⟩

/-- The search for a free cell fails behind the last cell. -/
theorem proper_firstFree (h : arena.firstFree = .error e) :
    Cause.Proper arena.size op (.memory e) := by
  unfold Arena.firstFree at h
  split at h
  · cases h
  · obtain rfl := Except.error.inj h
    exact ⟨rfl, .inl ⟨rfl, fun hin => Int.lt_irrefl _ hin.2⟩⟩

end Refusals

section Operands

variable {size : Nat} {i : Instruction} {slot : Fin 3} {op : Opcode} {cause : Cause}

theorem proper_operandToken (h : operandToken i slot = .error cause) : cause.Proper size op := by
  unfold operandToken at h
  split at h
  · obtain rfl := Except.error.inj h
    exact trivial
  · cases h

theorem proper_operandRegister (h : operandRegister i slot = .error cause) :
    cause.Proper size op := by
  rcases bind_eq_error.mp h with h | ⟨token, -, h⟩
  · exact proper_operandToken h
  · split at h
    · cases h
    · obtain rfl := Except.error.inj h
      exact trivial

theorem proper_operandNumber (h : operandNumber i slot = .error cause) :
    cause.Proper size op := by
  rcases bind_eq_error.mp h with h | ⟨token, -, h⟩
  · exact proper_operandToken h
  · split at h
    · cases h
    · obtain rfl := Except.error.inj h
      exact trivial

theorem proper_value {rs : Registers} {r : Register} (h : rs.value r = .error cause) :
    cause.Proper size op := by
  unfold Registers.value at h
  split at h
  · cases h
  · obtain rfl := Except.error.inj h
    exact trivial

theorem proper_checkGap {m : Machine} (h : m.checkGap = .error cause) : cause.Proper size op := by
  simp only [checkGap, bind_eq_error] at h
  obtain hhp | ⟨hp, -, hsp | ⟨sp, -, h⟩⟩ := h
  · exact proper_value hhp
  · exact proper_value hsp
  · split at h
    · obtain rfl := Except.error.inj h
      exact trivial
    · cases h

/-- **Every refused instruction has a proper cause.** -/
theorem Refuses.proper {rs : Registers} {arena : Arena}
    (h : Refuses rs arena i (.fault cause)) : cause.Proper arena.size i.op := by
  cases h with
  | register reads unread => exact proper_operandRegister unread
  | number reads unread => exact proper_operandNumber unread
  | unreadable op unread => rw [op]; exact proper_read unread
  | outside op out => exact proper_outside out
  | full op none => exact proper_firstFree none
  | zero op => exact rfl
  | _ => exact trivial

end Operands

/-! ### Runs -/

/-- A step that faults is explained by its fault. -/
theorem classified_step {mode : TraceMode} {m m' : Machine} {events : List Event} {f : Fault}
    (running : m.isRunning = true) (h : Stepped mode m m' events) (hf : m'.status = .faulted f) :
    Classified m.arena.size f ∧ (StoppedBeforeFetch ⟨m, events, m'⟩ f ∨
      StoppedAtInstruction m.code ⟨m, events, m'⟩ f) := by
  cases h with
  | idle stopped =>
    rw [running] at stopped
    cases stopped
  | refused _ gap next =>
    subst next
    obtain rfl := Status.faulted.inj hf
    exact ⟨(proper_checkGap gap).classified, .inl ⟨rfl, ⟨rfl, rfl⟩, rfl⟩⟩
  | lost _ _ _ next =>
    subst next
    obtain rfl := Status.faulted.inj hf
    have hcause : Cause.Proper m.arena.size ({} : Instruction).op
        (.noInstruction m.pc m.code.size) := trivial
    exact ⟨hcause.classified, .inl ⟨rfl, ⟨rfl, rfl⟩, rfl⟩⟩
  | faulted _ _ fetched refusal next =>
    subst next
    obtain rfl := Status.faulted.inj hf
    obtain ⟨hpc, hcode⟩ := fetch?_eq_some fetched
    exact ⟨(Refuses.of_plan refusal).proper.classified, .inr ⟨⟨rfl, hpc⟩, hcode, rfl⟩⟩
  | overrun _ _ fetched refusal next =>
    subst next
    obtain rfl := Status.faulted.inj hf
    obtain ⟨hpc, hcode⟩ := fetch?_eq_some fetched
    cases Refuses.of_plan refusal with
    | overrun op top out =>
      exact ⟨(proper_outside out).classified, .inr ⟨⟨rfl, hpc⟩, hcode, rfl⟩⟩
  | @executed i change after _ _ _ _ next =>
    have hafter : after.status = .running := by
      rw [next, apply_status]
      exact of_decide_eq_true running
    exact absurd hf (settled_status_ne hafter i f)

/-- **Every fault is well classified**, on every arena and after any number of steps, and the step
that faulted stopped before its fetch or at the instruction that the fault names. -/
theorem faults_classified {mode : TraceMode} {size : Int64} {code : Array Instruction}
    {ts : List Transition} {m : Machine} {f : Fault}
    (run : Run mode (Machine.load size code) ts m) (hf : m.status = .faulted f) :
    Classified m.arena.size f ∧ ∃ t ∈ ts, t.before.isRunning = true ∧ t.after = m ∧
      (StoppedBeforeFetch t f ∨ StoppedAtInstruction code t f) := by
  obtain ⟨earlier, t, ht, before, running, rfl, h⟩ := run.exists_faulting rfl hf
  obtain ⟨hclass, hplace⟩ := classified_step running h hf
  have hcode : t.before.code = code := before.code_eq
  rw [hcode] at hplace
  rw [arena_size_step h]
  exact ⟨hclass, t, ht, running, rfl, hplace⟩

/-- Pushes an absent word, then loads it. -/
def loadAbsent : Array Instruction :=
  #[.ofArgs .push ["$t1"] 0, .memory .lw "$a0" 0 "$sp"]

/-- A load of a live cell without a number is refused at an index of the arena. -/
theorem faults_classified_load :
    ∃ ts m f, Run .off (Machine.load 4 loadAbsent) ts m ∧ m.status = .faulted f ∧
      f.arenaError? = some { kind := .uninitializedRead, index := 3, size := 4 } ∧
      Classified m.arena.size f ∧ ∃ t ∈ ts, t.before.isRunning = true ∧ t.after = m ∧
        (StoppedBeforeFetch t f ∨ StoppedAtInstruction loadAbsent t f) := by
  have hafter : ((Machine.load 4 loadAbsent).after? .off 2).map (·.status) =
      some (.faulted (.ofCause (.memory { kind := .uninitializedRead, index := 3, size := 4 }) 1
        (.memory .lw "$a0" 0 "$sp"))) := by decide +kernel
  obtain ⟨m, hm, hstatus⟩ := Option.map_eq_some_iff.mp hafter
  obtain ⟨ts, run⟩ := Run.of_after? hm
  exact ⟨ts, m, _, run, hstatus, rfl, faults_classified run hstatus⟩

end RegisterMachine
