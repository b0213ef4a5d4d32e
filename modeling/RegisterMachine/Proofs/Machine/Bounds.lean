import RegisterMachine.Proofs.Machine.Heap
import RegisterMachine.Proofs.Machine.Refusal
import RegisterMachine.Proofs.Text.Decimal

/-!
# How far numbers can move

Immediates and results of arithmetic have 32 bits, so a number outside that range comes from the
size of the arena or was counted up from there: only `pop` and the program counter add one without
limit. After `k` steps no number exceeds its first bound by more than `k`, and therefore the
comparison of heap and stack before each fetch is one of exact integers.
-/

set_option autoImplicit false

namespace RegisterMachine

open Machine Checks

/-- Every number in the state lies between `low` and `high`. -/
structure Within (low high : Int) (m : Machine) : Prop where
  registers : ∀ {r : Register} {n : Int64}, m.registers.get r = some n →
    low ≤ n.toInt ∧ n.toInt ≤ high
  cells : ∀ {i : Int64} {c : Cell} {n : Int64}, m.arena.cell? i = some c → c.value = some n →
    low ≤ n.toInt ∧ n.toInt ≤ high
  counter : low ≤ m.pc.toInt ∧ m.pc.toInt ≤ high

theorem readInt32?_bounds {token : String} {n : Int64} (h : Decimal.readInt32? token = some n) :
    -2 ^ 31 ≤ n.toInt ∧ n.toInt < 2 ^ 31 := by
  obtain ⟨hlow, hhigh⟩ := Decimal.fitsInt32_of_readInt32? h
  omega

theorem widen_bounds (n : Int32) : -2 ^ 31 ≤ (widen n).toInt ∧ (widen n).toInt < 2 ^ 31 := by
  rw [widen, Int32.toInt_toInt64]
  exact ⟨n.le_toInt, n.toInt_lt⟩

/-- The check before a fetch, read off the registers. -/
theorem checkGap_eq_ok {m : Machine} :
    m.checkGap = .ok () ↔ ∃ hp sp, m.registers.hp = some hp ∧ m.registers.sp = some sp ∧
      (max hp m.heap + 1).toInt < sp.toInt := by
  have hlt : ∀ {a b : Int64}, ¬ a ≥ b ↔ a.toInt < b.toInt := by
    intro a b
    rw [ge_iff_le, Int64.le_iff_toInt_le]
    omega
  simp only [checkGap, bind_eq_ok, value_eq_ok]
  constructor
  · rintro ⟨hp, hhp, sp, hsp, h⟩
    refine ⟨hp, sp, hhp, hsp, hlt.mp fun hle => ?_⟩
    rw [if_pos hle] at h
    cases h
  · rintro ⟨hp, sp, hhp, hsp, h⟩
    exact ⟨hp, hhp, sp, hsp, if_neg (hlt.mpr h)⟩

/-- How far the execution of `i` can carry the numbers of a state from `high`: an address fits, and
where one is added to the program counter or the stack top, the sum does. -/
structure Headroom (high high' : Int) (m : Machine) (i : Instruction) : Prop where
  le : high ≤ high'
  word : 2 ^ 31 - 1 ≤ high'
  range : high < 2 ^ 63 - 1 ∧ high' < 2 ^ 63
  size : m.arena.size ≤ high' + 1
  counter : m.pc.toInt + 1 ≤ high'
  raised : i.op = .pop → ∀ {sp : Int64}, m.registers.sp = some sp → sp.toInt + 1 ≤ high'

namespace Within

variable {low high high' : Int} {m : Machine} {i : Instruction} {change : Change}

theorem mono {low' : Int} (w : Within low high m) (hlow : low' ≤ low) (hhigh : high ≤ high') :
    Within low' high' m where
  registers h := by have := w.registers h; omega
  cells h hv := by have := w.cells h hv; omega
  counter := by have := w.counter; omega

/-- What the stack top is compared with, while no number is at the end of the 64-bit range. -/
theorem toInt_barrier (w : Within low high m) (inv : HeapInvariant m) (hhigh : high < 2 ^ 63 - 1)
    {hp : Int64} (hhp : m.registers.hp = some hp) :
    (max hp m.heap + 1).toInt = max hp.toInt m.heap.toInt + 1 := by
  have hb := w.registers (r := .hp) hhp
  have hh := inv.heap_bounds
  have hs := inv.size_lt
  have hmax := Word.toInt_max hp m.heap
  rw [Word.toInt_add_one (by omega), hmax]

/-- A passed check keeps a cell between the highest allocated address and the stack top. -/
theorem gap (w : Within low high m) (inv : HeapInvariant m) (hhigh : high < 2 ^ 63 - 1)
    (h : m.checkGap = .ok ()) :
    ∃ hp sp, m.registers.hp = some hp ∧ m.registers.sp = some sp ∧
      hp.toInt + 1 < sp.toInt ∧ m.heap.toInt + 1 < sp.toInt := by
  obtain ⟨hp, sp, hhp, hsp, hlt⟩ := checkGap_eq_ok.mp h
  rw [w.toInt_barrier inv hhigh hhp] at hlt
  exact ⟨hp, sp, hhp, hsp, by omega, by omega⟩

/-- A number that an instruction puts into a register. -/
theorem assigned (w : Within low high m) (hlow : low ≤ -2 ^ 31) (room : Headroom high high' m i)
    {r : Register} {n : Int64} (h : Decides m.registers m.arena i (.assign r (some n))) :
    low ≤ n.toInt ∧ n.toInt ≤ high' := by
  obtain ⟨hle, hword, hrange, -⟩ := id room
  have hzero : (0 : Int64).toInt = 0 := rfl
  have hone : (1 : Int64).toInt = 1 := rfl
  generalize hw : (some n : Word) = word at h
  cases h with
  | @pop sp op top =>
    have hb := w.registers (r := .sp) top
    have hraised := room.raised op top
    rw [Option.some.inj hw, Word.toInt_add_one (by omega)]
    omega
  | load op target names holds content =>
    have hb := w.cells (Arena.read_eq_ok.mp content) rfl
    rw [Option.some.inj hw]
    omega
  | loadImmediate op target number =>
    have hb := readInt32?_bounds number
    rw [Option.some.inj hw]
    omega
  | move op target source =>
    have hb := w.registers hw.symm
    omega
  | @compute _ _ _ _ _ k op target left first right second result =>
    have hb := widen_bounds k
    rw [Option.some.inj hw]
    omega
  | @computeImmediate _ _ _ _ k op target left first number result =>
    have hb := widen_bounds k
    rw [Option.some.inj hw]
    omega
  | conjoin op target left right =>
    split at hw
    · rw [Option.some.inj hw, hone]; omega
    · cases hw
  | disjoin op target left right =>
    split at hw
    · rw [Option.some.inj hw, hone]; omega
    · cases hw
  | negate op target source =>
    rw [Option.some.inj hw]
    split
    · rw [hzero]; omega
    · rw [hone]; omega

/-! Setting a register or a cell to a number within the bounds. -/

theorem set (w : Within low high m) {r : Register} {word : Word}
    (hword : ∀ {n : Int64}, word = some n → low ≤ n.toInt ∧ n.toInt ≤ high) :
    Within low high (m.setRegister r word) where
  registers h := by
    rw [setRegister, Registers.get_set] at h
    split at h
    · exact hword h
    · exact w.registers h
  cells h hv := w.cells h hv
  counter := w.counter

theorem put (w : Within low high m) {a : Int64} {word : Word} (hin : m.arena.contains a)
    (hword : ∀ {n : Int64}, word = some n → low ≤ n.toInt ∧ n.toInt ≤ high) :
    Within low high { m with arena := m.arena.put a word } where
  registers h := w.registers h
  cells h hv := by
    change (m.arena.put a word).cell? _ = _ at h
    rw [Arena.cell?_put hin] at h
    split at h
    · obtain rfl := Option.some.inj h
      exact hword hv
    · exact w.cells h hv
  counter := w.counter

theorem advanced (w : Within low high m) (room : Headroom high high' m i) :
    Within low high' m.started.advance := by
  have wider := w.mono (Int.le_refl low) room.le
  refine ⟨wider.registers, wider.cells, ?_⟩
  have hc := w.counter
  have hnext := room.counter
  have hrange := room.range
  change low ≤ (m.pc + 1).toInt ∧ (m.pc + 1).toInt ≤ high'
  rw [Word.toInt_add_one (by omega)]
  omega

theorem released (w : Within low high m) {a : Int64} (hin : m.arena.contains a) :
    Within low high (m.apply (.release a)) where
  registers h := by
    rw [Machine.apply, forget_registers] at h
    exact w.registers h
  cells h hv := by
    rw [Machine.apply, forget_arena, Arena.cell?_release hin] at h
    split at h
    · obtain ⟨c', hc', rfl⟩ := Option.map_eq_some_iff.mp h
      exact w.cells hc' hv
    · exact w.cells h hv
  counter := by
    rw [Machine.apply, forget_pc]
    exact w.counter

/-- After a passed check the stack top can be lowered by one without a wrap. -/
theorem toInt_lowered (w : Within low high m) (inv : HeapInvariant m) (hhigh : high < 2 ^ 63 - 1)
    (hgap : m.checkGap = .ok ()) {sp : Int64} (top : m.registers.sp = some sp) :
    (sp - 1).toInt = sp.toInt - 1 ∧ 0 ≤ (sp - 1).toInt := by
  obtain ⟨hp, sp', -, top', -, hroom⟩ := w.gap inv hhigh hgap
  obtain rfl := Option.some.inj (top.symm.trans top')
  have hh := inv.heap_bounds
  rw [Word.toInt_sub_one (by omega)]
  omega

theorem lowered (w : Within low high m) (inv : HeapInvariant m) (hlow : low ≤ -2 ^ 31)
    (room : Headroom high high' m i) (hgap : m.checkGap = .ok ()) {sp : Int64}
    (top : m.registers.sp = some sp) :
    Within low high' (m.started.advance.setRegister .sp (some (sp - 1))) := by
  obtain ⟨hexact, hpos⟩ := w.toInt_lowered inv room.range.1 hgap top
  have hs := w.registers (r := .sp) top
  have hle := room.le
  refine (w.advanced room).set ?_
  intro n hn
  rw [← Option.some.inj hn]
  omega

/-- An executed instruction stays within its headroom. -/
theorem applied (w : Within low high m) (inv : HeapInvariant m) (hlow : low ≤ -2 ^ 31)
    (room : Headroom high high' m i) (hgap : m.checkGap = .ok ())
    (h : Decides m.registers m.arena i change) :
    Within low high' (m.started.advance.apply change) := by
  have ready := w.advanced room
  have hword := room.word
  have held : ∀ {r : Register} {n : Int64}, m.registers.get r = some n →
      low ≤ n.toInt ∧ n.toInt ≤ high' := ready.registers
  cases change with
  | nothing => exact ready
  | assign r word =>
    refine ready.set ?_
    rintro n rfl
    exact w.assigned hlow room h
  | push a word =>
    cases h with
    | push op source top inside =>
      have moved := w.lowered inv hlow room hgap top
      exact moved.put inside moved.registers
  | store a word =>
    cases h with
    | store op source names other holds inside => exact ready.put inside held
  | allocate a word =>
    obtain ⟨c, hc, -⟩ := h.allocate_free inv.size_lt
    have hin := Arena.contains_of_cell? hc
    cases h with
    | @allocate r sp slot op source names top free below =>
      have stored := ready.put hin (held (r := r))
      have ha := Arena.contains_iff.mp hin
      have hsize := room.size
      have hb : ∀ {n : Int64}, some (Int64.ofNat slot) = some n →
          low ≤ n.toInt ∧ n.toInt ≤ high' := by
        intro n hn
        rw [← Option.some.inj hn]
        omega
      exact ⟨(stored.set hb).registers, stored.cells, stored.counter⟩
  | release a =>
    cases h with
    | release op names holds inside => exact ready.released inside
  | print text => exact ready
  | jump target =>
    refine ⟨ready.registers, ready.cells, ?_⟩
    change low ≤ target.toInt ∧ target.toInt ≤ high'
    cases h with
    | branchEqual op left right number equal => have := readInt32?_bounds number; omega
    | branchLessEqual op left first right second number le =>
      have := readInt32?_bounds number
      omega
    | branch op number => have := readInt32?_bounds number; omega
    | jumpRegister op names holds => exact held holds
  | call target =>
    have linked : Within low high'
        (m.started.advance.setRegister .ra (some m.started.advance.pc)) := by
      refine ready.set ?_
      rintro n hn
      rw [← Option.some.inj hn]
      exact ready.counter
    refine ⟨linked.registers, linked.cells, ?_⟩
    change low ≤ target.toInt ∧ target.toInt ≤ high'
    cases h with
    | call op number => have := readInt32?_bounds number; omega

/-- **A step stays within the headroom of the instruction that it fetches.** -/
theorem step {mode : TraceMode} {m' : Machine} {events : List Event} (w : Within low high m)
    (inv : HeapInvariant m) (hlow : low ≤ -2 ^ 31) (hle : high ≤ high')
    (room : ∀ {i : Instruction}, m.isRunning = true → m.checkGap = .ok () → m.fetch? = some i →
      Headroom high high' m i)
    (h : Stepped mode m m' events) : Within low high' m' := by
  have wider : Within low high' m := w.mono (Int.le_refl low) hle
  cases h with
  | idle => exact wider
  | refused running gap next => rw [next]; exact ⟨wider.registers, wider.cells, wider.counter⟩
  | lost running gap fetched next =>
    rw [next]
    exact ⟨wider.registers, wider.cells, wider.counter⟩
  | faulted running gap fetched refusal next =>
    have ready := w.advanced (room running gap fetched)
    rw [next]
    exact ⟨ready.registers, ready.cells, ready.counter⟩
  | overrun running gap fetched refusal next =>
    cases Refuses.of_plan refusal with
    | overrun op top out =>
      have moved := w.lowered inv hlow (room running gap fetched) gap top
      rw [next]
      exact ⟨moved.registers, moved.cells, moved.counter⟩
  | executed running gap fetched plan next =>
    have done := w.applied inv hlow (room running gap fetched) gap (decides_of_plan plan)
    rw [← next] at done
    exact ⟨fun h => done.registers (by simpa using h), fun h => done.cells (by simpa using h),
      by simpa using done.counter⟩

theorem load {size : Int64} (code : Array Instruction) (hpos : 0 ≤ size.toInt)
    (hlow : low ≤ -1) (hhigh : size.toInt ≤ high) : Within low high (Machine.load size code) where
  registers {r n} h := by
    have hone : (size - 1).toInt = size.toInt - 1 := Word.toInt_sub_one (by omega)
    have hzero : (0 : Int64).toInt = 0 := rfl
    cases r <;> cases h <;> omega
  cells h hv := by
    rw [Arena.cell?_ofSize h] at hv
    cases hv
  counter := by
    change low ≤ (0 : Int64).toInt ∧ (0 : Int64).toInt ≤ high
    have hzero : (0 : Int64).toInt = 0 := rfl
    omega

end Within

/-! ### Runs -/

section Runs

variable {mode : TraceMode} {size : Int64} {code : Array Instruction} {ts : List Transition}
  {m : Machine}

/-- **After `k` steps no number exceeds its first bound by more than `k`.** -/
theorem within_run {low high : Int} (hpos : 0 ≤ size.toInt) (hlow : low ≤ -2 ^ 31)
    (hhigh : 2 ^ 31 - 1 ≤ high) (hsize : size.toInt ≤ high)
    (run : Run mode (Machine.load size code) ts m) (hlen : high + ts.length < 2 ^ 63) :
    Within low (high + ts.length) m := by
  refine run.invariant
    (P := fun ts m => high + ts.length < 2 ^ 63 → Within low (high + ts.length) m) ?_ ?_ hlen
  · intro _
    exact Within.load code hpos (by omega) (by simpa using hsize)
  · intro ts m m' events earlier ih h hlen
    rw [List.length_append, List.length_singleton] at hlen ⊢
    have w := ih (by omega)
    refine w.step (heapInvariant_run earlier) hlow (by omega) (fun _ _ _ => ?_) h
    have hcells := arena_size_run earlier
    have hcounter := w.counter
    refine ⟨by omega, by omega, by omega, ?_, by omega, fun _ sp top => ?_⟩
    · rw [hcells, Int64.toNatClampNeg]
      omega
    · have htop := w.registers (r := .sp) top
      omega

/-- With less than two cells, heap and stack meet at once. -/
theorem checkGap_ofSize (hsmall : size.toInt < 2) (hregs : m.registers = Registers.ofSize size)
    (hheap : m.heap = -1) : m.checkGap ≠ .ok () := by
  intro h
  obtain ⟨hp, sp, hhp, hsp, hlt⟩ := checkGap_eq_ok.mp h
  rw [hregs] at hhp hsp
  obtain rfl : 0 = hp := Option.some.inj hhp
  obtain rfl : size = sp := Option.some.inj hsp
  have hone : (max (0 : Int64) (-1) + 1).toInt = 1 := rfl
  rw [hheap, hone] at hlt
  omega

/-- A machine that gets past its first check has at least two cells. -/
theorem two_le_size (run : Run mode (Machine.load size code) ts m) (running : m.isRunning = true)
    (gap : m.checkGap = .ok ()) : 2 ≤ size.toInt := by
  refine Int.not_lt.mp fun hsmall => ?_
  have untouched : m.isRunning = true → m.registers = Registers.ofSize size ∧ m.heap = -1 := by
    refine run.invariant
      (P := fun _ m => m.isRunning = true → m.registers = Registers.ofSize size ∧ m.heap = -1) ?_ ?_
    · exact fun _ => ⟨rfl, rfl⟩
    · intro ts m m' events _ ih h running'
      have stuck : m.isRunning = true → m.checkGap ≠ .ok () := fun running =>
        checkGap_ofSize (by omega) (ih running).1 (ih running).2
      cases h with
      | idle stopped => rw [stopped] at running'; cases running'
      | refused running gap next => simp [next, isRunning, fail] at running'
      | lost running gap => exact absurd gap (stuck running)
      | faulted running gap => exact absurd gap (stuck running)
      | overrun running gap => exact absurd gap (stuck running)
      | executed running gap => exact absurd gap (stuck running)
  exact checkGap_ofSize (by omega) (untouched running).1 (untouched running).2 gap

end Runs

end RegisterMachine
