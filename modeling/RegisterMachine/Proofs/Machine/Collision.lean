import RegisterMachine.Proofs.Machine.Bounds
import RegisterMachine.Proofs.Machine.Effects

/-!
# Where collisions come from

Heap and stack are compared before every fetch, but only two registers can bring them together. An
allocation is held to the margin of that comparison, and a deletion lowers the frontier or leaves
it. So an instruction that writes neither the stack top nor the heap cursor leads to a state that
passes the next comparison, for all positions of the two, the ends of the 64-bit range included.
-/

set_option autoImplicit false

namespace RegisterMachine

open Machine Checks

/-- The instruction writes the stack top or the heap cursor. -/
def Instruction.MovesBoundary (i : Instruction) : Prop :=
  i.destination? = some .sp ∨ i.destination? = some .hp

instance (i : Instruction) : Decidable i.MovesBoundary :=
  inferInstanceAs (Decidable (_ ∨ _))

/-! ### The barrier -/

section Barrier

variable {hp heap sp a : Int64}

/-- Two addresses that each leave a cell below the stack top leave it together. -/
theorem barrier_raised (hgap : (max hp heap + 1).toInt < sp.toInt)
    (room : (a + 1).toInt < sp.toInt) : (max hp (max heap a) + 1).toInt < sp.toInt := by
  have hcases : max hp (max heap a) = max hp heap ∨ max hp (max heap a) = a := by
    simp only [← Int64.toInt_inj, Word.toInt_max]
    omega
  rcases hcases with he | he
  · rwa [he]
  · rwa [he]

/-- A frontier that sinks from an address of an arena keeps the gap. The heap cursor may be the
highest number there is, whose successor is negative; the frontier may not. -/
theorem barrier_lowered {heap' : Int64} (hle : heap'.toInt ≤ heap.toInt)
    (hheap : heap.toInt < 2 ^ 63 - 1) (hgap : (max hp heap + 1).toInt < sp.toInt) :
    (max hp heap' + 1).toInt < sp.toInt := by
  by_cases hhp : heap.toInt ≤ hp.toInt
  · have hsame : max hp heap' = max hp heap := by
      simp only [← Int64.toInt_inj, Word.toInt_max]
      omega
    rwa [hsame]
  · have hmax := Word.toInt_max hp heap
    have hmax' := Word.toInt_max hp heap'
    rw [Word.toInt_add_one (by omega)] at hgap ⊢
    omega

end Barrier

/-! ### The frontier -/

section Frontier

variable {m : Machine} {i : Instruction} {change : Change}

/-- Only an allocation raises the frontier. -/
theorem heap_apply_le (inv : HeapInvariant m) (rule : Decides m.registers m.arena i change)
    (other : ∀ a w, change ≠ .allocate a w) : (m.apply change).heap.toInt ≤ m.heap.toInt := by
  cases change with
  | allocate a w => exact absurd rfl (other a w)
  | release a =>
    -- The new frontier is an address that was allocated before, or lies just below the arena.
    have inv' := heapInvariant_apply inv rule
    rcases inv'.attained with hmem | ⟨-, hnone⟩
    · refine inv.bound _ ?_
      exact (mem_live_apply.mp hmem).elim (fun ⟨w, he⟩ => nomatch he) And.left
    · have hminus : (-1 : Int64).toInt = -1 := rfl
      have hb := inv.heap_bounds
      rw [hnone, hminus]
      omega
  | _ => exact Int.le_refl _

/-- **A change that moves neither register passes the next check.** -/
theorem checkGap_apply (inv : HeapInvariant m) (gap : m.checkGap = .ok ())
    (rule : Decides m.registers m.arena i change) (still : ¬ i.MovesBoundary) :
    (m.apply change).checkGap = .ok () := by
  obtain ⟨hp, sp, hhp, hsp, hgap⟩ := checkGap_eq_ok.mp gap
  have hkept : ∀ {r : Register}, r = .sp ∨ r = .hp →
      (m.apply change).registers.get r = m.registers.get r := by
    rintro r hr
    refine get_registers_apply m change fun hd => still ?_
    rw [rule.destination?_eq] at hd
    rcases hr with rfl | rfl
    · exact .inl hd
    · exact .inr hd
  refine checkGap_eq_ok.mpr ⟨hp, sp, (hkept (.inr rfl)).trans hhp, (hkept (.inl rfl)).trans hsp, ?_⟩
  by_cases halloc : ∃ a w, change = .allocate a w
  · obtain ⟨a, w, rfl⟩ := halloc
    cases rule with
    | allocate op source names top free room =>
      obtain rfl := Option.some.inj (top.symm.trans hsp)
      rw [ge_iff_le, Int64.le_iff_toInt_le, Int.not_le] at room
      exact barrier_raised hgap room
  · have hle := heap_apply_le inv rule fun a w he => halloc ⟨a, w, he⟩
    have hheap := inv.heap_bounds
    have hsize := inv.size_lt
    exact barrier_lowered hle (by omega) hgap

end Frontier

/-! ### Steps -/

/-- Neither an allocation nor a deletion writes one of the two registers. -/
theorem not_movesBoundary_of_heap {i : Instruction} (op : i.op = .sw ∨ i.op = .del) :
    ¬ i.MovesBoundary := by
  rw [Instruction.MovesBoundary, Instruction.destination?]
  rcases op with op | op
  · rw [op]
    dsimp only
    split <;> simp
  · rw [op]
    simp

/-- **Collisions come from moving the stack top or the heap cursor only.** In every reachable state,
a step that executes an instruction which writes neither of them leads to a state in which the check
before the next fetch passes. This covers every allocation and every deletion. -/
theorem gap_kept {mode : TraceMode} {size : Int64} {code : Array Instruction}
    {ts : List Transition} {m m' : Machine} {events : List Event} {i : Instruction}
    (run : Run mode (Machine.load size code) ts m) (taken : m.step mode = some (m', events))
    (executed : Transition.Executes ⟨m, events, m'⟩ i) :
    (¬ i.MovesBoundary → m'.checkGap = .ok ()) ∧
      ∀ a, Transition.Allocates ⟨m, events, m'⟩ a ∨ Transition.Deletes ⟨m, events, m'⟩ a →
        m'.checkGap = .ok () := by
  have way := stepped_of_step taken
  obtain ⟨change, -, gap, -, plan, next⟩ := way.of_executes executed
  have kept : ¬ i.MovesBoundary → m'.checkGap = .ok () := by
    intro still
    have inv := (heapInvariant_run run).advanced
    have passed := checkGap_apply inv gap (decides_of_plan plan) still
    obtain ⟨hp, sp, hhp, hsp, hgap⟩ := checkGap_eq_ok.mp passed
    rw [next]
    exact checkGap_eq_ok.mpr ⟨hp, sp, by simpa using hhp, by simpa using hsp, by simpa using hgap⟩
  refine ⟨kept, ?_⟩
  rintro a (⟨j, hj, op, -⟩ | ⟨j, -, hj, op, -⟩)
  · obtain rfl := way.executes_unique executed hj
    exact kept (not_movesBoundary_of_heap (.inl op))
  · obtain rfl := way.executes_unique executed hj
    exact kept (not_movesBoundary_of_heap (.inr op))

/-- Allocates two of three cells and gives the higher one back. -/
def fillToStack : Array Instruction :=
  #[.memory .sw "$sp" 0 "$hp", .memory .sw "$sp" 0 "$hp", .ofArgs .del ["$a0"] 0]

/-- The second allocation takes the highest cell that it may: the frontier then leaves one cell
below the stack top, and the next check still passes. -/
theorem gap_kept_highest :
    ∃ ts m m' events, Run .off (Machine.load 3 fillToStack) ts m ∧
      m.step .off = some (m', events) ∧ Transition.Allocates ⟨m, events, m'⟩ 1 ∧
      m'.heap = 1 ∧ m'.registers.sp = some 3 ∧ m'.checkGap = .ok () := by
  let i : Instruction := .memory .sw "$sp" 0 "$hp"
  have hafter : ((Machine.load 3 fillToStack).after? .off 1).map (fun m =>
      ((m.isRunning, m.checkGap.toOption, m.fetch?), (m.plan i).toOption, m.heap, m.registers.sp)) =
      some ((true, some (), some i), some (.allocate 1 (some 3)), 0, some 3) := by decide +kernel
  obtain ⟨m, hm, hstate⟩ := Option.map_eq_some_iff.mp hafter
  simp only [Prod.mk.injEq, toOption_eq_some] at hstate
  obtain ⟨⟨running, gap, fetched⟩, plan, hheap, hsp⟩ := hstate
  obtain ⟨ts, run⟩ := Run.of_after? hm
  have way : Stepped .off m _ _ := .executed running gap fetched plan rfl
  have taken := step_of_stepped way
  have executed := way.executes_of_plan running gap fetched plan
  have allocates : Transition.Allocates ⟨m, _, _⟩ 1 :=
    (allocates_iff way executed plan rfl).mpr ⟨_, rfl⟩
  refine ⟨ts, m, _, _, run, taken, allocates, ?_, ?_,
    (gap_kept run taken executed).2 1 (.inl allocates)⟩
  · rw [settled_heap]
    show max m.heap 1 = 1
    rw [hheap]
    rfl
  · rw [settled_registers]
    exact hsp

end RegisterMachine
