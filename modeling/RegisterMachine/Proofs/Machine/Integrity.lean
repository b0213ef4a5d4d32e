import RegisterMachine.Proofs.Machine.Bounds

/-!
# Heap integrity

Heap and stack share one arena without a border between them. An allocated cell is nevertheless
safe: pushes stay above it, allocations avoid it, and its content and its life are in the hands of
the program's own stores and deletions at its address. Programs may move the stack top and the
heap cursor at will; the check before each fetch is what keeps the two apart, as long as no number
can reach the end of the 64-bit range.
-/

set_option autoImplicit false

namespace RegisterMachine

open Machine

/-- The address of the one cell that a change concerns. -/
def Change.address? : Change → Option Int64
  | .push a _ => some a
  | .store a _ => some a
  | .allocate a _ => some a
  | .release a => some a
  | _ => none

section Cells

variable {m : Machine} {i : Instruction} {change : Change} {a : Int64}

theorem Decides.contains_address (inv : HeapInvariant m)
    (h : Decides m.registers m.arena i change) (ha : change.address? = some a) :
    m.arena.contains a := by
  cases change with
  | push x w =>
    obtain rfl := Option.some.inj ha
    cases h with
    | push op source top room => exact room
  | store x w =>
    obtain rfl := Option.some.inj ha
    cases h with
    | store op source names other holds room => exact room
  | allocate x w =>
    obtain rfl := Option.some.inj ha
    obtain ⟨c, hc, -⟩ := h.allocate_free inv.size_lt
    exact Arena.contains_of_cell? hc
  | release x =>
    obtain rfl := Option.some.inj ha
    cases h with
    | release op names holds room => exact room
  | _ => cases ha

/-- Every other cell stays as it is. -/
theorem cell?_apply_of_ne (inv : HeapInvariant m) (h : Decides m.registers m.arena i change)
    (hne : change.address? ≠ some a) : (m.apply change).arena.cell? a = m.arena.cell? a := by
  have hin : ∀ {x}, change.address? = some x → m.arena.contains x ∧ a ≠ x := fun hx =>
    ⟨h.contains_address inv hx, fun he => hne (he ▸ hx)⟩
  cases change with
  | push x w => rw [apply, Arena.cell?_put (hin rfl).1, if_neg (hin rfl).2]
  | store x w => rw [apply, Arena.cell?_put (hin rfl).1, if_neg (hin rfl).2]
  | allocate x w => rw [apply, Arena.cell?_put (hin rfl).1, if_neg (hin rfl).2]
  | release x => rw [apply, forget_arena, Arena.cell?_release (hin rfl).1, if_neg (hin rfl).2]
  | _ => rfl

theorem cell?_next_of_ne (inv : HeapInvariant m) (plan : m.plan i = .ok change)
    (hne : change.address? ≠ some a) :
    ((m.started.advance.apply change).settled i).arena.cell? a = m.arena.cell? a := by
  rw [settled_arena]
  exact cell?_apply_of_ne inv.advanced (decides_of_plan plan) hne

end Cells

/-- What a step does to the cells that were outstanding before it. -/
structure HeapKept (ts : List Transition) (t : Transition) : Prop where
  /-- A push writes below the stack top only, and never to an outstanding address. -/
  pushed : ∀ {i : Instruction}, t.Executes i → i.op = .push →
    ∃ sp, t.before.registers.sp = some sp ∧ ¬ Outstanding ts (sp - 1) ∧
      ∀ a, a ≠ sp - 1 → t.after.arena.cell? a = t.before.arena.cell? a
  /-- An allocation returns an address that is not outstanding and whose cell was free. -/
  fresh : ∀ {a : Int64}, t.Allocates a →
    ¬ Outstanding ts a ∧ ∃ c, t.before.arena.cell? a = some c ∧ c.live = false
  /-- An outstanding cell is live; stores at its address alone change its content, deletions of
  its address alone end its life. -/
  owned : ∀ {a : Int64}, Outstanding ts a →
    ∃ c c', t.before.arena.cell? a = some c ∧ c.live = true ∧ t.after.arena.cell? a = some c' ∧
      (c'.value ≠ c.value → t.Stores a) ∧ (c'.live = false → t.Deletes a)

section Step

variable {mode : TraceMode} {size : Int64} {code : Array Instruction} {ts : List Transition}
  {m m' : Machine} {events : List Event}

/-- **The stack stays above the heap.** -/
theorem not_outstanding_push (hsize : size.toInt < 2 ^ 44) (hlen : ts.length + 1 < 2 ^ 62)
    (run : Run mode (Machine.load size code) ts m) (running : m.isRunning = true)
    (gap : m.checkGap = .ok ()) {sp : Int64} (top : m.registers.sp = some sp) :
    ¬ Outstanding ts (sp - 1) := by
  intro hout
  have inv := heapInvariant_run run
  have hpos := two_le_size run running gap
  have w : Within (-2 ^ 63) (2 ^ 44 + ts.length) m :=
    within_run (by omega) (by omega) (by omega) (by omega) run (by omega)
  obtain ⟨hp, sp', -, top', -, hroom⟩ := w.gap inv (by omega) gap
  obtain rfl := Option.some.inj (top.symm.trans top')
  have hbound := inv.bound _ ((outstanding_iff_live run _).mp hout)
  have hh := inv.heap_bounds
  rw [Word.toInt_sub_one (by omega)] at hbound
  omega

/-- What an executed instruction does to a live cell that it does not push to. -/
theorem owned_next {i : Instruction} {change : Change} {a : Int64} (inv : HeapInvariant m)
    (hpush : ∀ w, change ≠ .push a w) (he : Transition.Executes ⟨m, events, m'⟩ i)
    (plan : m.plan i = .ok change) (next : m' = (m.started.advance.apply change).settled i)
    {c : Cell} (hc : m.arena.cell? a = some c) (hl : c.live = true) :
    ∃ c', m'.arena.cell? a = some c' ∧
      (c'.value ≠ c.value → Transition.Stores ⟨m, events, m'⟩ a) ∧
      (c'.live = false → Transition.Deletes ⟨m, events, m'⟩ a) := by
  have rule := decides_of_plan plan
  by_cases haddr : change.address? = some a
  · cases change with
    | push x w =>
      obtain rfl := Option.some.inj haddr
      exact absurd rfl (hpush w)
    | store x w =>
      obtain rfl := Option.some.inj haddr
      cases rule with
      | @store r base b op source names other holds room =>
        refine ⟨{ value := m.registers.get r, live := true }, ?_, ?_, ?_⟩
        · rw [next, settled_arena, apply]
          exact (Arena.cell?_put room _ _).trans (if_pos rfl)
        · exact fun _ => ⟨i, base, b, he, op, names, other, holds, rfl⟩
        · intro hdead
          cases hdead
    | allocate x w =>
      -- The cell of a fresh address is free, and this one is live.
      obtain rfl := Option.some.inj haddr
      obtain ⟨c', hc', hfree⟩ := rule.allocate_free inv.size_lt
      rw [Option.some.inj (hc.symm.trans hc'), hfree] at hl
      cases hl
    | release x =>
      obtain rfl := Option.some.inj haddr
      cases rule with
      | release op names holds room =>
        refine ⟨{ c with live := false }, ?_, fun hv => absurd rfl hv, fun _ => ?_⟩
        · rw [next, settled_arena, apply, forget_arena]
          refine (Arena.cell?_release room _).trans ?_
          rw [if_pos rfl, hc]
          rfl
        · exact ⟨i, _, he, op, names, holds⟩
    | _ => cases haddr
  · refine ⟨c, ?_, fun hv => absurd rfl hv, fun hdead => ?_⟩
    · rw [next, cell?_next_of_ne inv plan haddr, hc]
    · rw [hl] at hdead
      cases hdead

end Step

/-- **Heap integrity.** In every run of fewer than 2^62 steps on an arena of less than 2^44 cells,
every step keeps the outstanding cells. -/
theorem heap_integrity {mode : TraceMode} {size : Int64} {code : Array Instruction}
    {ts : List Transition} {m m' : Machine} {events : List Event} (hsize : size.toInt < 2 ^ 44)
    (run : Run mode (Machine.load size code) ts m) (taken : m.step mode = some (m', events))
    (hlen : ts.length + 1 < 2 ^ 62) : HeapKept ts ⟨m, events, m'⟩ := by
  have h := stepped_of_step taken
  have inv := heapInvariant_run run
  refine ⟨?_, ?_, ?_⟩
  · intro i he op
    obtain ⟨change, running, gap, -, plan, next⟩ := h.of_executes he
    cases decides_of_plan plan with
    | @push r sp op' source top room =>
      refine ⟨sp, top, not_outstanding_push hsize hlen run running gap top, fun a hne => ?_⟩
      change m'.arena.cell? a = m.arena.cell? a
      rw [next]
      exact cell?_next_of_ne inv plan fun he => hne (Option.some.inj he).symm
    | _ => simp_all
  · intro a halloc
    obtain ⟨i, he, -⟩ := id halloc
    obtain ⟨change, -, -, -, plan, next⟩ := h.of_executes he
    obtain ⟨w, rfl⟩ := (allocates_iff h he plan next).mp halloc
    obtain ⟨c, hc, hfree⟩ := (decides_of_plan plan).allocate_free inv.size_lt
    refine ⟨fun hout => ?_, c, hc, hfree⟩
    obtain ⟨c', hc', hl⟩ := inv.allocated a ((outstanding_iff_live run a).mp hout)
    rw [Option.some.inj (hc'.symm.trans hc), hfree] at hl
    cases hl
  · intro a hout
    obtain ⟨c, hc, hl⟩ := inv.allocated a ((outstanding_iff_live run a).mp hout)
    rcases h.frame_or_executes with ⟨harena, -⟩ | ⟨i, change, he, gap, plan, next⟩
    · refine ⟨c, c, hc, hl, by rw [← hc, harena], fun hv => absurd rfl hv, fun hdead => ?_⟩
      rw [hl] at hdead
      cases hdead
    · have hpush : ∀ w, change ≠ .push a w := by
        rintro w rfl
        obtain ⟨-, running, -⟩ := h.of_executes he
        cases decides_of_plan plan with
        | push op source top room => exact not_outstanding_push hsize hlen run running gap top hout
      obtain ⟨c', hc', hvalue, hlife⟩ := owned_next inv hpush he plan next hc hl
      exact ⟨c, c', hc, hl, hc', hvalue, hlife⟩

/-- Allocates a cell for an absent word, then pushes its address. -/
def allocateThenPush : Array Instruction :=
  #[.memory .sw "$t1" 5 "$hp", .ofArgs .push ["$a0"] 0]

/-- The step that allocates address 0 in an arena of three cells. -/
def allocationStep : Transition :=
  let before := Machine.load 3 allocateThenPush
  let after := { before.started.advance with
    arena := before.arena.put 0 none
    registers := before.registers.set .a0 (some 0)
    heap := 0
    live := [0] }
  { before, after
    events := [.began 3 2 before.view, .fetched 0 (.memory .sw "$t1" 5 "$hp") before.view,
      .executed 0 (.memory .sw "$t1" 5 "$hp") after.view] }

theorem run_allocationStep :
    Run .off (Machine.load 3 allocateThenPush) [allocationStep] allocationStep.after :=
  .step .start (by decide +kernel)

/-- The push behind the allocation keeps the allocated cell, with a single cell between the two. -/
theorem heap_integrity_push :
    (3 : Int64).toInt < 2 ^ 44 ∧ Outstanding [allocationStep] 0 ∧
      ∃ m' events, allocationStep.after.step .off = some (m', events) ∧
        Transition.Executes ⟨allocationStep.after, events, m'⟩ (.ofArgs .push ["$a0"] 0) ∧
        HeapKept [allocationStep] ⟨allocationStep.after, events, m'⟩ := by
  have taken : allocationStep.after.step .off = some
      ({ allocationStep.after.advance with
        arena := allocationStep.after.arena.put 2 (some 0)
        registers := allocationStep.after.registers.set .sp (some 2) },
       [.fetched 1 (.ofArgs .push ["$a0"] 0) allocationStep.after.view,
        .executed 1 (.ofArgs .push ["$a0"] 0)
          { allocationStep.after.advance with
            registers := allocationStep.after.registers.set .sp (some 2) }.view]) := by
    decide +kernel
  refine ⟨by decide, ?_, _, _, taken, ⟨_, _, .tail _ (.head _)⟩,
    heap_integrity (by decide) run_allocationStep taken (by decide)⟩
  refine ⟨[], allocationStep, [], rfl, ?_, by simp⟩
  exact ⟨_, ⟨_, _, .tail _ (.tail _ (.head _))⟩, rfl, by decide, rfl⟩

end RegisterMachine
