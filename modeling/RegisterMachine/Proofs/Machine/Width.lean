import RegisterMachine.Proofs.Machine.Bounds

/-!
# The width of numbers

Immediates and results of arithmetic have 32 bits, and so do the addresses of a small arena and the
places of a short program. On them a machine has a single way to a wider number: it pops at the
highest 32-bit address. From there every pop adds one, so a run would have to take more than 2^61
steps before any of the 64-bit computations could wrap. Until then they have the results of exact
integers.
-/

set_option autoImplicit false

namespace RegisterMachine

open Machine Checks

/-! ### 32-bit words -/

/-- Every number in a register or a cell has 32 bits. -/
structure Machine.Narrow (m : Machine) : Prop where
  registers : ∀ {r : Register} {n : Int64}, m.registers.get r = some n →
    -2 ^ 31 ≤ n.toInt ∧ n.toInt < 2 ^ 31
  cells : ∀ {a : Int64} {c : Cell} {n : Int64}, m.arena.cell? a = some c → c.value = some n →
    -2 ^ 31 ≤ n.toInt ∧ n.toInt < 2 ^ 31

/-- The step has executed a pop while the stack top was at the highest 32-bit address. -/
def Transition.PopsHighest (t : Transition) : Prop :=
  ∃ i, t.Executes i ∧ i.op = .pop ∧ t.before.registers.sp = some 2147483647

theorem Within.narrow {m : Machine} (w : Within (-2 ^ 31) (2 ^ 31 - 1) m) : m.Narrow where
  registers h := by have := w.registers h; omega
  cells h hv := by have := w.cells h hv; omega

section Narrow

variable {mode : TraceMode} {size : Int64} {code : Array Instruction} {ts : List Transition}
  {m m' : Machine} {events : List Event}

theorem planPop_eq {i : Instruction} {sp : Int64} (op : i.op = .pop)
    (top : m.registers.sp = some sp) : m.plan i = .ok (.assign .sp (some (sp + 1))) := by
  have hvalue : demand (m.registers.value .sp) = .ok sp := demand_eq_ok.mpr (value_eq_ok.mpr top)
  simp only [plan, op, planPop, hvalue, ok_bind, pure_eq]

/-- **Only a pop at the highest 32-bit address leaves the 32-bit range.** -/
theorem Within.step_narrow (w : Within (-2 ^ 31) (2 ^ 31 - 1) m) (inv : HeapInvariant m)
    (hsize : m.arena.size < 2 ^ 31) (hcode : m.code.size < 2 ^ 31) (h : Stepped mode m m' events)
    (other : ¬ Transition.PopsHighest ⟨m, events, m'⟩) : Within (-2 ^ 31) (2 ^ 31 - 1) m' := by
  refine w.step inv (Int.le_refl _) (Int.le_refl _) (fun {i} running gap fetched => ?_) h
  refine ⟨Int.le_refl _, Int.le_refl _, by omega, by omega, ?_, ?_⟩
  · obtain ⟨hpos, hstored⟩ := fetch?_eq_some fetched
    have hlt : m.pc.toNatClampNeg < m.code.size := (Array.getElem?_eq_some_iff.mp hstored).1
    rw [Int64.toNatClampNeg] at hlt
    omega
  · intro op sp top
    have htop := w.registers (r := .sp) top
    have hne : sp.toInt ≠ 2 ^ 31 - 1 := by
      intro he
      have hsp : sp = 2147483647 := Int64.toInt_inj.mp he
      subst hsp
      exact other ⟨i, h.executes_of_plan running gap fetched (planPop_eq op top), op, top⟩
    omega

theorem within_narrow_run (hpos : 0 ≤ size.toInt) (hsize : size.toInt < 2 ^ 31)
    (hcode : code.size < 2 ^ 31) (run : Run mode (Machine.load size code) ts m)
    (other : ∀ t ∈ ts, ¬ t.PopsHighest) : Within (-2 ^ 31) (2 ^ 31 - 1) m := by
  revert other
  refine run.invariant (P := fun ts m => (∀ t ∈ ts, ¬ t.PopsHighest) →
    Within (-2 ^ 31) (2 ^ 31 - 1) m) ?_ ?_
  · intro _
    exact Within.load code hpos (by omega) (by omega)
  · intro ts m m' events earlier ih h other
    have hcells : m.arena.size < 2 ^ 31 := by
      rw [arena_size_run earlier, Int64.toNatClampNeg]
      omega
    have hlen : m.code.size < 2 ^ 31 := by
      rw [earlier.code_eq]
      exact hcode
    have w := ih fun t ht => other t (List.mem_append_left _ ht)
    exact w.step_narrow (heapInvariant_run earlier) hcells hlen h (other _ List.mem_concat_self)

/-- A pop at the highest 32-bit address leaves it. -/
theorem not_narrow_of_popsHighest {t : Transition} (h : Stepped mode t.before t.after t.events)
    (pops : t.PopsHighest) : ¬ t.after.Narrow := by
  obtain ⟨i, he, op, top⟩ := pops
  obtain ⟨change, -, -, -, plan, next⟩ := h.of_executes he
  obtain rfl := Except.ok.inj (plan.symm.trans (planPop_eq op top))
  have hsp : t.after.registers.get .sp = some 2147483648 := by
    rw [next, settled_registers]
    rfl
  intro narrow
  have hb := (narrow.registers hsp).2
  exact absurd hb (by decide)

end Narrow

/-- **When words have 32 bits.** On an arena and with a program of fewer than 2^31 cells and
instructions, a new machine is narrow, and it stays so all along a run exactly if the run never pops
at the highest 32-bit address. -/
theorem words_narrow_iff {mode : TraceMode} {size : Int64} {code : Array Instruction}
    {ts : List Transition} {m : Machine} (hpos : 0 ≤ size.toInt) (hsize : size.toInt < 2 ^ 31)
    (hcode : code.size < 2 ^ 31) (run : Run mode (Machine.load size code) ts m) :
    (Machine.load size code).Narrow ∧
      ((∀ t ∈ ts, t.after.Narrow) ↔ ∀ t ∈ ts, ¬ t.PopsHighest) := by
  have hload : Within (-2 ^ 31) (2 ^ 31 - 1) (Machine.load size code) :=
    Within.load code hpos (by omega) (by omega)
  refine ⟨hload.narrow, ?_⟩
  constructor
  · intro narrow t ht pops
    obtain ⟨earlier, later, hsplit⟩ := List.append_of_mem ht
    obtain ⟨-, h⟩ := run.split hsplit
    exact not_narrow_of_popsHighest h pops (narrow t ht)
  · intro other t ht
    obtain ⟨earlier, later, hsplit⟩ := List.append_of_mem ht
    obtain ⟨before, h⟩ := run.split hsplit
    have upto : Run mode (Machine.load size code) (earlier ++ [t]) t.after :=
      before.step (step_of_stepped h)
    refine (within_narrow_run hpos hsize hcode upto fun u hu => other u ?_).narrow
    rw [hsplit]
    rcases List.mem_append.mp hu with hu | hu
    · exact List.mem_append_left _ hu
    · rw [List.mem_singleton.mp hu]
      exact List.mem_append_right _ List.mem_cons_self

/-- Pops at the highest 32-bit address. -/
def popHighest : Array Instruction :=
  #[.ofArgs .li ["$sp", "2147483647"] 0, .ofArgs .pop [] 0]

theorem run_popHighest :
    ∃ ts m, Run .off (Machine.load 8 popHighest) ts m ∧ m.registers.sp = some 2147483648 := by
  have hafter : ((Machine.load 8 popHighest).after? .off 2).map (·.registers.sp) =
      some (some 2147483648) := by decide +kernel
  obtain ⟨m, hm, hsp⟩ := Option.map_eq_some_iff.mp hafter
  obtain ⟨ts, run⟩ := Run.of_after? hm
  exact ⟨ts, m, run, hsp⟩

/-- The run that pops at the highest 32-bit address, up to there. -/
theorem words_narrow_iff_pop :
    ∃ ts m, Run .off (Machine.load 8 popHighest) ts m ∧ m.registers.sp = some 2147483648 ∧
      (Machine.load 8 popHighest).Narrow ∧
      ((∀ t ∈ ts, t.after.Narrow) ↔ ∀ t ∈ ts, ¬ t.PopsHighest) := by
  obtain ⟨ts, m, run, hsp⟩ := run_popHighest
  exact ⟨ts, m, run, hsp, words_narrow_iff (by decide) (by decide) (by decide) run⟩

/-- With eight cells and two instructions, the stack top reaches 2^31. -/
theorem pop_widens :
    ∃ ts m, Run .off (Machine.load 8 popHighest) ts m ∧ popHighest.size = 2 ∧
      m.registers.sp = some 2147483648 ∧ ¬ m.Narrow := by
  obtain ⟨ts, m, run, hsp⟩ := run_popHighest
  refine ⟨ts, m, run, rfl, hsp, fun narrow => ?_⟩
  have hb := (narrow.registers (r := .sp) hsp).2
  exact absurd hb (by decide)

/-! ### Exact arithmetic -/

/-- The 64-bit computations of the step that comes next have the results of exact integers. -/
structure ExactArithmetic (m : Machine) : Prop where
  /-- The check before a fetch: the stack top must be above the cell behind the heap. -/
  gap : ∀ {hp sp : Int64}, m.registers.hp = some hp → m.registers.sp = some sp →
    (m.checkGap = .ok () ↔ max hp.toInt m.heap.toInt + 1 < sp.toInt)
  counter : m.advance.pc.toInt = m.pc.toInt + 1
  /-- A push goes to the cell below the stack top, and never to a negative address. -/
  push : ∀ {i : Instruction} {r : Register} {sp : Int64}, m.checkGap = .ok () → i.op = .push →
    Register.ofToken? i.arg1 = some r → m.registers.sp = some sp →
      ∃ top : Int64, top.toInt = sp.toInt - 1 ∧ 0 ≤ top.toInt ∧
        m.plan i = if m.arena.contains top then
          .ok (.push top ((m.registers.set .sp (some top)).get r))
          else .error (.overrun top (m.arena.outside top))
  pop : ∀ {i : Instruction} {sp : Int64}, i.op = .pop → m.registers.sp = some sp →
    ∃ top : Int64, top.toInt = sp.toInt + 1 ∧ m.plan i = .ok (.assign .sp (some top))
  load : ∀ {i : Instruction} {rd base : Register} {b : Int64}, m.fetch? = some i → i.op = .lw →
    Register.ofToken? i.arg1 = some rd → Register.ofToken? i.arg2 = some base →
      m.registers.get base = some b →
        ∃ a : Int64, a.toInt = b.toInt + i.offset.toInt ∧
          m.plan i = demand ((m.arena.read a).mapError .memory) >>= fun n =>
            .ok (.assign rd (some n))
  store : ∀ {i : Instruction} {r base : Register} {b : Int64}, m.fetch? = some i → i.op = .sw →
    Register.ofToken? i.arg1 = some r → Register.ofToken? i.arg2 = some base → base ≠ .hp →
      m.registers.get base = some b →
        ∃ a : Int64, a.toInt = b.toInt + i.offset.toInt ∧
          m.plan i = if m.arena.contains a then .ok (.store a (m.registers.get r))
            else .error (.fault (.memory (m.arena.outside a)))

section Plans

variable {m : Machine} {i : Instruction} {r rd base : Register} {sp b : Int64}

theorem planPush_eq (op : i.op = .push) (source : Register.ofToken? i.arg1 = some r)
    (top : m.registers.sp = some sp) :
    m.plan i = if m.arena.contains (sp - 1) then
      .ok (.push (sp - 1) ((m.registers.set .sp (some (sp - 1))).get r))
      else .error (.overrun (sp - 1) (m.arena.outside (sp - 1))) := by
  have hsource : demand (operandRegister i 0) = .ok r :=
    demand_eq_ok.mpr (operandRegister_eq_ok.mpr source)
  have hvalue : demand (m.registers.value .sp) = .ok sp := demand_eq_ok.mpr (value_eq_ok.mpr top)
  simp only [plan, op, planPush, hsource, hvalue, ok_bind, pure_eq, throw_eq]

theorem planLoad_eq (op : i.op = .lw) (target : Register.ofToken? i.arg1 = some rd)
    (names : Register.ofToken? i.arg2 = some base) (holds : m.registers.get base = some b) :
    m.plan i = demand ((m.arena.read (b + i.offset)).mapError .memory) >>= fun n =>
      .ok (.assign rd (some n)) := by
  have htarget : demand (operandRegister i 0) = .ok rd :=
    demand_eq_ok.mpr (operandRegister_eq_ok.mpr target)
  have hvalue : demand (m.operandValue i 1) = .ok b :=
    demand_eq_ok.mpr (operandValue_eq_ok.mpr ⟨base, names, holds⟩)
  simp only [plan, op, planLoad, htarget, hvalue, ok_bind, pure_eq]

theorem planStore_eq (op : i.op = .sw) (source : Register.ofToken? i.arg1 = some r)
    (names : Register.ofToken? i.arg2 = some base) (other : base ≠ .hp)
    (holds : m.registers.get base = some b) :
    m.plan i = if m.arena.contains (b + i.offset) then
      .ok (.store (b + i.offset) (m.registers.get r))
      else .error (.fault (.memory (m.arena.outside (b + i.offset)))) := by
  have hsource : demand (m.operandWord i 0) = .ok (m.registers.get r) :=
    demand_eq_ok.mpr (operandWord_eq_ok.mpr ⟨r, source, rfl⟩)
  have hbase : demand (operandRegister i 1) = .ok base :=
    demand_eq_ok.mpr (operandRegister_eq_ok.mpr names)
  have hvalue : demand (m.registers.value base) = .ok b :=
    demand_eq_ok.mpr (value_eq_ok.mpr holds)
  simp only [plan, op, planStore, hsource, hbase, hvalue, if_neg other, ok_bind, pure_eq, throw_eq]

theorem planLoadImmediate_eq {n : Int64} (op : i.op = .li)
    (target : Register.ofToken? i.arg1 = some rd) (number : Decimal.readInt32? i.arg2 = some n) :
    m.plan i = .ok (.assign rd (some n)) := by
  have htarget : demand (operandRegister i 0) = .ok rd :=
    demand_eq_ok.mpr (operandRegister_eq_ok.mpr target)
  have hnumber : demand (operandNumber i 1) = .ok n :=
    demand_eq_ok.mpr (operandNumber_eq_ok.mpr number)
  simp only [plan, op, planLoadImmediate, htarget, hnumber, ok_bind, pure_eq]

theorem planPrint_eq {n : Int64} (op : i.op = .print) (names : Register.ofToken? i.arg1 = some r)
    (holds : m.registers.get r = some n) :
    m.plan i = .ok (.print (Decimal.ofInt64 n ++ "\n")) := by
  have hvalue : demand (m.operandValue i 0) = .ok n :=
    demand_eq_ok.mpr (operandValue_eq_ok.mpr ⟨r, names, holds⟩)
  simp only [plan, op, planPrint, hvalue, ok_bind, pure_eq]

end Plans

/-- Numbers and offsets far from the ends of the 64-bit range make no computation wrap. -/
theorem Within.exact {low high : Int} {m : Machine} (w : Within low high m)
    (inv : HeapInvariant m) (hlow : -2 ^ 62 ≤ low) (hhigh : high < 2 ^ 62)
    (offsets : ∀ {i : Instruction}, m.fetch? = some i → i.offset.toInt.natAbs < 2 ^ 62) :
    ExactArithmetic m := by
  have address : ∀ {i : Instruction} {base : Register} {b : Int64}, m.fetch? = some i →
      m.registers.get base = some b → (b + i.offset).toInt = b.toInt + i.offset.toInt := by
    intro i base b fetched holds
    have hb := w.registers holds
    have ho := offsets fetched
    exact Word.toInt_add (by omega) (by omega)
  constructor
  · intro hp sp hhp hsp
    rw [← w.toInt_barrier inv (by omega) hhp, checkGap_eq_ok]
    constructor
    · rintro ⟨hp', sp', hhp', hsp', hlt⟩
      obtain rfl := Option.some.inj (hhp.symm.trans hhp')
      obtain rfl := Option.some.inj (hsp.symm.trans hsp')
      exact hlt
    · intro hlt
      exact ⟨hp, sp, hhp, hsp, hlt⟩
  · have hc := w.counter
    exact Word.toInt_add_one (by omega)
  · intro i r sp passed op source top
    obtain ⟨hexact, hnonneg⟩ := w.toInt_lowered inv (by omega) passed top
    exact ⟨sp - 1, hexact, hnonneg, planPush_eq op source top⟩
  · intro i sp op top
    have hb := w.registers (r := .sp) top
    exact ⟨sp + 1, Word.toInt_add_one (by omega), planPop_eq op top⟩
  · intro i rd base b fetched op target names holds
    exact ⟨b + i.offset, address fetched holds, planLoad_eq op target names holds⟩
  · intro i r base b fetched op source names other holds
    exact ⟨b + i.offset, address fetched holds, planStore_eq op source names other holds⟩

/-- **No computation wraps in a feasible run.** On an arena of fewer than 2^31 cells, after `k`
steps no number is below -2^31 or above 2^31 - 1 by more than `k`. For fewer than 2^61 steps, and
offsets of less than 2^62, all that was computed in them and will be in the next one is exact. -/
theorem arithmetic_exact {mode : TraceMode} {size : Int64} {code : Array Instruction}
    {ts : List Transition} {m : Machine} (hpos : 0 ≤ size.toInt) (hsize : size.toInt < 2 ^ 31)
    (offsets : ∀ i ∈ code, i.offset.toInt.natAbs < 2 ^ 62)
    (run : Run mode (Machine.load size code) ts m) (hlen : ts.length < 2 ^ 61) :
    Within (-2 ^ 31) (2 ^ 31 - 1 + ts.length) m ∧ ExactArithmetic m ∧
      ∀ t ∈ ts, ExactArithmetic t.before := by
  have bounded : ∀ {ts : List Transition} {m : Machine}, Run mode (Machine.load size code) ts m →
      ts.length < 2 ^ 61 → Within (-2 ^ 31) (2 ^ 31 - 1 + ts.length) m := fun run hlen =>
    within_run hpos (Int.le_refl _) (Int.le_refl _) (by omega) run (by omega)
  have exact : ∀ {ts : List Transition} {m : Machine}, Run mode (Machine.load size code) ts m →
      ts.length < 2 ^ 61 → ExactArithmetic m := by
    intro ts m run hlen
    refine (bounded run hlen).exact (heapInvariant_run run) (by omega) (by omega) fun fetched => ?_
    refine offsets _ ?_
    have hcode : m.code = code := run.code_eq
    rw [← hcode]
    exact mem_of_fetch? fetched
  refine ⟨bounded run hlen, exact run hlen, ?_⟩
  intro t ht
  obtain ⟨earlier, later, rfl⟩ := List.append_of_mem ht
  obtain ⟨before, -⟩ := run.split rfl
  refine exact before ?_
  rw [List.length_append] at hlen
  omega

/-- Loads from far below the stack top. -/
def loadFar : Array Instruction :=
  #[.ofArgs .lw ["$a0", "$sp"] (-4611686018427387903)]

/-- The address that a load from far below is refused for is exact. -/
theorem arithmetic_exact_far :
    ∃ t, Run .off (Machine.load 8 loadFar) [t] t.after ∧
      t.after.fault?.bind Fault.cause =
        some (.memory ((Arena.ofSize 8).outside (8 - 4611686018427387903))) ∧
      Within (-2 ^ 31) (2 ^ 31) t.after ∧ ExactArithmetic t.after ∧ ExactArithmetic t.before := by
  have hstep : ((Machine.load 8 loadFar).step .off).map (·.1.fault?.bind Fault.cause) =
      some (some (.memory ((Arena.ofSize 8).outside (8 - 4611686018427387903)))) := by
    decide +kernel
  obtain ⟨⟨m, events⟩, taken, hcause⟩ := Option.map_eq_some_iff.mp hstep
  have run : Run .off (Machine.load 8 loadFar) [⟨Machine.load 8 loadFar, events, m⟩] m :=
    .step .start taken
  obtain ⟨w, next, earlier⟩ := arithmetic_exact (by decide) (by decide) (by decide) run (by simp)
  refine ⟨_, run, hcause, w.mono (Int.le_refl _) ?_, next, earlier _ List.mem_cons_self⟩
  rw [List.length_singleton]
  omega

end RegisterMachine
