import RegisterMachine.Proofs.Machine.Width

/-!
# Division

A division compares its divisor with zero in full width and then divides by the low 32 bits. The
two disagree on the multiples of 2^32 other than zero: they pass the comparison, and the division
unit takes the machine down. Numbers of that size come from the arena, or from a stack top that was
popped up to there, which any arena of two cells allows. Short runs on smaller arenas do not get
that far.
-/

set_option autoImplicit false

namespace RegisterMachine

open Machine Checks

/-- On `m`, the instruction divides `a` by `b` for the register `rd`. -/
structure Divides (m : Machine) (i : Instruction) (rd : Register) (a b : Int64) : Prop where
  target : operandRegister i 0 = .ok rd
  dividend : m.operandValue i 1 = .ok a
  divisor : i.op = .div ∧ m.operandValue i 2 = .ok b ∨ i.op = .divi ∧ operandNumber i 2 = .ok b

/-- The step that comes next does not end in a trap; if it divides, then by a number with low bits
other than zero, or it faults at a divisor of zero. -/
structure DividesSafely (mode : TraceMode) (m : Machine) : Prop where
  divisor : ∀ {i : Instruction} {rd : Register} {a b : Int64}, m.Issues i → Divides m i rd a b →
    b ≠ 0 → b.toInt32 ≠ 0
  quotient : ∀ {i : Instruction} {rd : Register} {a b : Int64}, m.Issues i → Divides m i rd a b →
    b ≠ 0 → ∃ m' events, m.step mode = some (m', events) ∧ m'.status = .running ∧
      m'.registers = m.registers.set rd (some (widen (a.toInt32 / b.toInt32)))
  zero : ∀ {i : Instruction} {rd : Register} {a : Int64}, m.Issues i → Divides m i rd a 0 →
    ∃ m' events f, m.step mode = some (m', events) ∧ m'.status = .faulted f ∧
      f.kind = .divisionByZero
  alive : m.step mode ≠ none

/-! ### The division unit -/

theorem toInt32_eq_zero {b : Int64} : b.toInt32 = 0 ↔ 2 ^ 32 ∣ b.toInt := by
  have hzero : (0 : Int32).toInt = 0 := rfl
  rw [← Int32.toInt_inj, Int64.toInt_toInt32, hzero]
  exact Int.dvd_iff_bmod_eq_zero.symm

theorem quotient_eq_trap {a b : Int64} :
    quotient a b = .error .trap ↔ b ≠ 0 ∧ 2 ^ 32 ∣ b.toInt := by
  rw [← toInt32_eq_zero]
  unfold quotient
  split
  · next hzero => simp [hzero]
  · next hzero =>
    split
    · next hlow => simp [hzero, hlow]
    · next hlow => simp [hlow]

section Plans

variable {mode : TraceMode} {m : Machine} {i : Instruction} {rd : Register} {a b : Int64}

theorem Divides.plan_eq (h : Divides m i rd a b) :
    m.plan i = quotient a b >>= fun n => .ok (.assign rd (some (widen n))) := by
  have htarget := demand_eq_ok.mpr h.target
  have hdividend := demand_eq_ok.mpr h.dividend
  rcases h.divisor with ⟨op, hdivisor⟩ | ⟨op, hdivisor⟩
  · simp only [plan, op, planArithmetic, htarget, hdividend, Bool.false_eq_true, if_false,
      demand_eq_ok.mpr hdivisor, ok_bind, compute, pure_eq]
  · simp only [plan, op, planArithmetic, htarget, hdividend, if_true, demand_eq_ok.mpr hdivisor,
      ok_bind, compute, pure_eq]

theorem Divides.plan_eq_ok (h : Divides m i rd a b) (hbits : b.toInt32 ≠ 0) :
    m.plan i = .ok (.assign rd (some (widen (a.toInt32 / b.toInt32)))) := by
  have hzero : b ≠ 0 := by
    rintro rfl
    exact hbits rfl
  rw [h.plan_eq, quotient, if_neg hzero, if_neg hbits, ok_bind]

theorem demand_ne_trap {α : Type} {check : Except Cause α} : demand check ≠ .error .trap := by
  intro h
  obtain ⟨cause, -, hc⟩ := Refuses.demand_eq_error.mp h
  cases hc

/-- A trap is met behind the operands of an arithmetic instruction. -/
theorem computes_of_trap {immediate : Bool} (h : m.planArithmetic i immediate = .error .trap) :
    ∃ rd a b, operandRegister i 0 = .ok rd ∧ m.operandValue i 1 = .ok a ∧
      (if immediate then operandNumber i 2 else m.operandValue i 2) = .ok b ∧
      compute i.op a b = .error .trap := by
  rcases bind_eq_error.mp h with h | ⟨rd, target, h⟩
  · exact absurd h demand_ne_trap
  rcases bind_eq_error.mp h with h | ⟨a, dividend, h⟩
  · exact absurd h demand_ne_trap
  rcases bind_eq_error.mp h with h | ⟨b, divisor, h⟩
  · exact absurd h demand_ne_trap
  rcases bind_eq_error.mp h with h | ⟨n, -, h⟩
  · exact ⟨rd, a, b, demand_eq_ok.mp target, demand_eq_ok.mp dividend, demand_eq_ok.mp divisor, h⟩
  · cases h

/-- **Only a division by a multiple of 2^32 traps.** -/
theorem plan_eq_trap : m.plan i = .error .trap ↔
    ∃ rd a b, Divides m i rd a b ∧ b ≠ 0 ∧ 2 ^ 32 ∣ b.toInt := by
  constructor
  · intro h
    cases Refuses.of_plan h with
    | trap op =>
      rcases op with op | op
      · simp only [plan, op] at h
        obtain ⟨rd, a, b, target, dividend, divisor, trapped⟩ := computes_of_trap h
        rw [op] at trapped
        exact ⟨rd, a, b, ⟨target, dividend, .inl ⟨op, divisor⟩⟩, quotient_eq_trap.mp trapped⟩
      · simp only [plan, op] at h
        obtain ⟨rd, a, b, target, dividend, divisor, trapped⟩ := computes_of_trap h
        rw [op] at trapped
        exact ⟨rd, a, b, ⟨target, dividend, .inr ⟨op, divisor⟩⟩, quotient_eq_trap.mp trapped⟩
  · rintro ⟨rd, a, b, h, hb⟩
    rw [h.plan_eq, quotient_eq_trap.mpr hb, error_bind]

theorem Divides.op_ne_halt (h : Divides m i rd a b) : i.op ≠ .halt := by
  rcases h.divisor with ⟨op, -⟩ | ⟨op, -⟩ <;> simp [op]

/-- **A division is safe exactly if its divisor is zero wherever its low bits are.** -/
theorem dividesSafely_iff : DividesSafely mode m ↔
    ∀ i rd a b, m.Issues i → Divides m i rd a b → 2 ^ 32 ∣ b.toInt → b = 0 := by
  constructor
  · intro safe i rd a b issued divides hlow
    by_contra hne
    exact safe.divisor issued divides hne (toInt32_eq_zero.mpr hlow)
  · intro h
    have divisor : ∀ {i : Instruction} {rd : Register} {a b : Int64}, m.Issues i →
        Divides m i rd a b → b ≠ 0 → b.toInt32 ≠ 0 :=
      fun issued divides hne hlow => hne (h _ _ _ _ issued divides (toInt32_eq_zero.mp hlow))
    refine ⟨divisor, ?_, ?_, ?_⟩
    · intro i rd a b issued divides hne
      have hplan := divides.plan_eq_ok (divisor issued divides hne)
      have way : Stepped mode m _ _ :=
        .executed issued.running issued.gap issued.fetched hplan rfl
      have hstatus : m.status = .running := of_decide_eq_true issued.running
      refine ⟨_, _, step_of_stepped way, ?_, ?_⟩
      · rw [settled, if_neg divides.op_ne_halt]
        exact hstatus
      · rw [settled_registers]
        rfl
    · intro i rd a issued divides
      have hplan := divides.plan_eq
      rw [quotient, if_pos rfl, error_bind] at hplan
      have way : Stepped mode m _ _ :=
        .faulted issued.running issued.gap issued.fetched hplan rfl
      exact ⟨_, _, _, step_of_stepped way, rfl, rfl⟩
    · intro stuck
      obtain ⟨i, issued, trapped⟩ := step_eq_none_iff.mp stuck
      obtain ⟨rd, a, b, divides, hne, hlow⟩ := plan_eq_trap.mp trapped
      exact hne (h i rd a b issued divides hlow)

end Plans

/-! ### Short runs -/

theorem Divides.divisor_bounds {low high : Int} {m : Machine} {i : Instruction} {rd : Register}
    {a b : Int64} (h : Divides m i rd a b) (w : Within low high m) (hlow : low ≤ -2 ^ 31)
    (hhigh : 2 ^ 31 - 1 ≤ high) : low ≤ b.toInt ∧ b.toInt ≤ high := by
  rcases h.divisor with ⟨-, hb⟩ | ⟨-, hb⟩
  · obtain ⟨r, -, holds⟩ := operandValue_eq_ok.mp hb
    exact w.registers holds
  · have hbounds := readInt32?_bounds (operandNumber_eq_ok.mp hb)
    omega

theorem dividesSafely_run {mode : TraceMode} {size : Int64} {code : Array Instruction}
    {ts : List Transition} {m : Machine} (run : Run mode (Machine.load size code) ts m)
    (hlen : max size.toInt (2 ^ 31 - 1) + ts.length < 2 ^ 32) : DividesSafely mode m := by
  refine dividesSafely_iff.mpr fun i rd a b issued divides hlow => ?_
  have hsize := two_le_size run issued.running issued.gap
  have w : Within (-2 ^ 31) (max size.toInt (2 ^ 31 - 1) + ts.length) m :=
    within_run (by omega) (Int.le_refl _) (by omega) (by omega) run (by omega)
  have hb := divides.divisor_bounds w (Int.le_refl _) (by omega)
  have hzero : b.toInt = 0 := by omega
  exact Int64.toInt_inj.mp hzero

/-! ### The way up to 2^32 -/

/-- Divides the stack top by itself. -/
def divideTop : Instruction :=
  .ofArgs .div ["$t1", "$sp", "$sp"] 0

theorem divides_divideTop {m : Machine} {sp : Int64} (top : m.registers.sp = some sp) :
    Divides m divideTop .t1 sp sp := by
  refine ⟨by decide, ?_, .inl ⟨rfl, ?_⟩⟩
  · exact operandValue_eq_ok.mpr ⟨.sp, by decide, top⟩
  · exact operandValue_eq_ok.mpr ⟨.sp, by decide, top⟩

/-- Divides by the stack top, pops and starts over. -/
def climb : Array Instruction :=
  #[.ofArgs .li ["$sp", "2147483647"] 0, divideTop, .ofArgs .pop [] 0, .ofArgs .b ["1"] 0]

/-- On its way up, at instruction `pc` and with the stack top at `sp`. -/
structure Climbing (pc sp : Int64) (m : Machine) : Prop where
  code : m.code = climb
  status : m.status = .running
  heap : m.heap = -1
  bottom : m.registers.hp = some 0
  top : m.registers.sp = some sp
  place : m.pc = pc

namespace Climbing

variable (mode : TraceMode) {origin m : Machine} {pc sp : Int64}

theorem issues {i : Instruction} (h : Climbing pc sp m) (hlow : 1 < sp.toInt) (hpc : 0 ≤ pc)
    (stored : climb[pc.toNatClampNeg]? = some i) : m.Issues i := by
  refine ⟨decide_eq_true h.status, checkGap_eq_ok.mpr ⟨0, sp, h.bottom, h.top, ?_⟩, ?_⟩
  · rw [h.heap]
    exact hlow
  · rw [fetch?, h.place, h.code, if_neg (Int64.not_lt.mpr hpc), stored]

/-- A division below 2^32 does not change the stack top. -/
theorem divided (h : Climbing 1 sp m) (hlow : 1 < sp.toInt) (hhigh : sp.toInt < 2 ^ 32) :
    ∃ m', (m.step mode).map (·.1) = some m' ∧ Climbing 2 sp m' := by
  have hbits : sp.toInt32 ≠ 0 := by
    rw [Ne, toInt32_eq_zero]
    omega
  have hplan := (divides_divideTop h.top).plan_eq_ok hbits
  refine ⟨_, (h.issues hlow (by decide) rfl).next hplan, h.code, h.status, h.heap, h.bottom, h.top,
    ?_⟩
  show m.pc + 1 = 2
  rw [h.place]
  rfl

theorem popped (h : Climbing 2 sp m) (hlow : 1 < sp.toInt) :
    ∃ m', (m.step mode).map (·.1) = some m' ∧ Climbing 3 (sp + 1) m' := by
  have hplan : m.plan (.ofArgs .pop [] 0) = .ok (.assign .sp (some (sp + 1))) :=
    planPop_eq rfl h.top
  refine ⟨_, (h.issues hlow (by decide) rfl).next hplan, h.code, h.status, h.heap, h.bottom, rfl,
    ?_⟩
  show m.pc + 1 = 3
  rw [h.place]
  rfl

theorem resumed (h : Climbing 3 sp m) (hlow : 1 < sp.toInt) :
    ∃ m', (m.step mode).map (·.1) = some m' ∧ Climbing 1 sp m' := by
  have hplan : m.plan (.ofArgs .b ["1"] 0) = .ok (.jump 1) := by
    show planBranch (.ofArgs .b ["1"] 0) = .ok (.jump 1)
    decide
  exact ⟨_, (h.issues hlow (by decide) rfl).next hplan, h.code, h.status, h.heap, h.bottom, h.top,
    rfl⟩

/-- Once around, the stack top is higher by one. -/
theorem round (h : Climbing 1 sp m) (run : ∃ ts, Run mode origin ts m) (hlow : 1 < sp.toInt)
    (hhigh : sp.toInt < 2 ^ 32) :
    ∃ m', (∃ ts, Run mode origin ts m') ∧ Climbing 1 (sp + 1) m' := by
  have hnext : (sp + 1).toInt = sp.toInt + 1 := Word.toInt_add_one (by omega)
  obtain ⟨m₁, taken₁, h₁⟩ := h.divided mode hlow hhigh
  obtain ⟨m₂, taken₂, h₂⟩ := h₁.popped mode hlow
  obtain ⟨m₃, taken₃, h₃⟩ := h₂.resumed mode (by omega)
  exact ⟨m₃, Run.extend (Run.extend (Run.extend run taken₁) taken₂) taken₃, h₃⟩

/-- The first step takes the stack top to the highest 32-bit address. -/
theorem start {size : Int64} (hsize : 2 ≤ size.toInt) :
    ∃ m, (∃ ts, Run mode (Machine.load size climb) ts m) ∧ Climbing 1 2147483647 m := by
  have loaded : Climbing 0 size (Machine.load size climb) := ⟨rfl, rfl, rfl, rfl, rfl, rfl⟩
  have hplan : (Machine.load size climb).plan (.ofArgs .li ["$sp", "2147483647"] 0) =
      .ok (.assign .sp (some 2147483647)) := by
    show planLoadImmediate (.ofArgs .li ["$sp", "2147483647"] 0) = _
    decide
  have issued := loaded.issues (by omega) (by decide) rfl
  exact ⟨_, Run.extend ⟨[], .start⟩ (issued.next hplan), rfl, rfl, rfl, rfl, rfl, rfl⟩

/-- **Popped often enough, the stack top gets to 2^32.** -/
theorem reached {size : Int64} (hsize : 2 ≤ size.toInt) (k : Nat) (hk : k ≤ 2 ^ 31 + 1) :
    ∃ m sp, (∃ ts, Run mode (Machine.load size climb) ts m) ∧ Climbing 1 sp m ∧
      sp.toInt = 2 ^ 31 - 1 + k := by
  induction k with
  | zero =>
    obtain ⟨m, run, h⟩ := start mode hsize
    exact ⟨m, 2147483647, run, h, rfl⟩
  | succ k ih =>
    obtain ⟨m, sp, run, h, hsp⟩ := ih (by omega)
    obtain ⟨m', run', h'⟩ := h.round mode run (by omega) (by omega)
    refine ⟨m', sp + 1, run', h', ?_⟩
    rw [Word.toInt_add_one (by omega), hsp]
    omega

end Climbing

/-- An arena of two cells is enough for a trap. -/
theorem exists_trapped (mode : TraceMode) {size : Int64} (hsize : 2 ≤ size.toInt) :
    ∃ ts m, Run mode (Machine.load size climb) ts m ∧ m.registers.sp = some 4294967296 ∧
      m.step mode = none := by
  obtain ⟨m, sp, ⟨ts, run⟩, h, hsp⟩ := Climbing.reached mode hsize (2 ^ 31 + 1) (by omega)
  obtain rfl : sp = 4294967296 := Int64.toInt_inj.mp hsp
  have trapped := plan_eq_trap.mpr ⟨_, _, _, divides_divideTop h.top, by decide, by decide⟩
  have issued := h.issues (by decide) (by decide) rfl
  exact ⟨ts, m, run, h.top, step_eq_none_iff.mpr ⟨_, issued, trapped⟩⟩

/-- **When divisions are safe.** They are safe in all programs only on arenas that are too small for
a single instruction. In a given state it is enough that no multiple of 2^32 but zero is a divisor,
and that is so while neither the size of the arena nor the number of steps gets near 2^32. -/
theorem divisions_safe_iff (mode : TraceMode) (size : Int64) :
    ((∀ code ts m, Run mode (Machine.load size code) ts m → DividesSafely mode m) ↔
      size.toInt < 2) ∧
    ∀ code ts m, Run mode (Machine.load size code) ts m →
      (DividesSafely mode m ↔
        ∀ i rd a b, m.Issues i → Divides m i rd a b → 2 ^ 32 ∣ b.toInt → b = 0) ∧
      (max size.toInt (2 ^ 31 - 1) + ts.length < 2 ^ 32 → DividesSafely mode m) := by
  refine ⟨⟨fun safe => ?_, fun hsmall code ts m run => ?_⟩, fun code ts m run => ?_⟩
  · by_contra hsize
    obtain ⟨ts, m, run, -, stuck⟩ := exists_trapped mode (Int.not_lt.mp hsize)
    exact (safe climb ts m run).alive stuck
  · refine dividesSafely_iff.mpr fun i rd a b issued => ?_
    have hsize := two_le_size run issued.running issued.gap
    omega
  · exact ⟨dividesSafely_iff, dividesSafely_run run⟩

/-- An arena of 2^32 cells, of which the size is divided by itself. -/
def divideSize : Machine :=
  Machine.load 4294967296 #[divideTop]

/-- With 2^32 cells, a division passes its check and traps in the first step. -/
theorem size_division_traps :
    divideSize.Issues divideTop ∧ Divides divideSize divideTop .t1 4294967296 4294967296 ∧
      (4294967296 : Int64) ≠ 0 ∧ divideSize.step .off = none := by
  have issued : divideSize.Issues divideTop :=
    ⟨rfl, checkGap_eq_ok.mpr ⟨0, 4294967296, rfl, rfl, by decide⟩, rfl⟩
  have divides : Divides divideSize divideTop .t1 4294967296 4294967296 := divides_divideTop rfl
  have trapped := plan_eq_trap.mpr ⟨_, _, _, divides, by decide, by decide⟩
  exact ⟨issued, divides, by decide, step_eq_none_iff.mpr ⟨_, issued, trapped⟩⟩

end RegisterMachine
