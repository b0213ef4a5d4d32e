import Mathlib.Order.Bounds.Defs
import RegisterMachine.Proofs.Machine.Decision
import RegisterMachine.Proofs.Machine.Stepping

/-!
# The heap and its frontier

The machine keeps the allocated addresses and the highest of them. `HeapInvariant` ties the two
to each other and to the cells. It does not mention registers: a program may assign the stack top
and the heap cursor as it likes. `Outstanding` says, from the executed instructions alone, which
addresses are allocated; it agrees with what the machine keeps.
-/

set_option autoImplicit false

namespace RegisterMachine

open Machine

/-- The allocated cells are live, and the frontier is the highest of their addresses. -/
structure HeapInvariant (m : Machine) : Prop where
  size_lt : m.arena.size < 2 ^ 63
  allocated : ∀ a ∈ m.live, ∃ c, m.arena.cell? a = some c ∧ c.live = true
  bound : ∀ a ∈ m.live, a.toInt ≤ m.heap.toInt
  attained : m.heap ∈ m.live ∨ m.live = [] ∧ m.heap = -1

namespace HeapInvariant

variable {m : Machine}

theorem contains (inv : HeapInvariant m) {a : Int64} (h : a ∈ m.live) : m.arena.contains a := by
  obtain ⟨c, hc, -⟩ := inv.allocated a h
  exact Arena.contains_of_cell? hc

/-- The frontier lies in the arena or just below it. -/
theorem heap_bounds (inv : HeapInvariant m) :
    -1 ≤ m.heap.toInt ∧ m.heap.toInt < m.arena.size := by
  rcases inv.attained with hmem | ⟨-, hnone⟩
  · have h := Arena.contains_iff.mp (inv.contains hmem)
    omega
  · have hminus : (-1 : Int64).toInt = -1 := rfl
    rw [hnone, hminus]
    omega

end HeapInvariant

namespace Machine

/-! Giving an address back changes nothing but the heap. -/

variable (m : Machine) (a : Int64)

theorem forget_registers : (m.forget a).registers = m.registers := by
  unfold forget; split <;> rfl

theorem forget_arena : (m.forget a).arena = m.arena := by
  unfold forget; split <;> rfl

theorem forget_pc : (m.forget a).pc = m.pc := by
  unfold forget; split <;> rfl

end Machine

/-! ### The highest of a list of addresses -/

private theorem foldl_max_spec (live : List Int64) (b : Int64) :
    b.toInt ≤ (live.foldl max b).toInt ∧ (∀ a ∈ live, a.toInt ≤ (live.foldl max b).toInt) ∧
      (live.foldl max b = b ∨ live.foldl max b ∈ live) := by
  induction live generalizing b with
  | nil => simp
  | cons x rest ih =>
    obtain ⟨hb, hrest, hmem⟩ := ih (max b x)
    rw [Word.toInt_max] at hb
    rw [List.foldl_cons]
    refine ⟨by omega, ?_, ?_⟩
    · intro a ha
      rcases List.mem_cons.mp ha with rfl | ha
      · omega
      · exact hrest a ha
    · rcases hmem with he | hin
      · by_cases hx : b ≤ x
        · have hmax : max b x = x := if_pos hx
          exact .inr (by rw [he, hmax]; exact List.mem_cons_self)
        · have hmax : max b x = b := if_neg hx
          exact .inl (by rw [he, hmax])
      · exact .inr (List.mem_cons_of_mem x hin)

theorem le_frontier {live : List Int64} {a : Int64} (h : a ∈ live) :
    a.toInt ≤ (Machine.frontier live).toInt :=
  (foldl_max_spec live (-1)).2.1 a h

/-- Of non-negative addresses the frontier is one, if there are any. -/
theorem frontier_mem {live : List Int64} (hpos : ∀ a ∈ live, 0 ≤ a.toInt) :
    Machine.frontier live ∈ live ∨ live = [] ∧ Machine.frontier live = -1 := by
  have hminus : (-1 : Int64).toInt = -1 := rfl
  rcases (foldl_max_spec live (-1)).2.2 with he | hin
  · cases live with
    | nil => exact .inr ⟨rfl, rfl⟩
    | cons x rest =>
      have hx := le_frontier (List.mem_cons_self (a := x) (l := rest))
      have hx0 := hpos x List.mem_cons_self
      rw [Machine.frontier, he, hminus] at hx
      omega
  · exact .inl hin

/-- The frontier depends on which addresses are in the list, not on their order. -/
theorem frontier_congr {live other : List Int64} (h : ∀ a, a ∈ live ↔ a ∈ other) :
    Machine.frontier live = Machine.frontier other := by
  have hle : ∀ {xs ys : List Int64}, (∀ a ∈ xs, a ∈ ys) →
      (Machine.frontier xs).toInt ≤ (Machine.frontier ys).toInt := by
    intro xs ys hsub
    rcases (foldl_max_spec xs (-1)).2.2 with he | hin
    · rw [Machine.frontier, he]
      exact (foldl_max_spec ys (-1)).1
    · exact le_frontier (hsub _ hin)
  have hup := hle fun a ha => (h a).mp ha
  have hdown := hle fun a ha => (h a).mpr ha
  exact Int64.toInt_inj.mp (by omega)

/-! ### One step -/

section Step

variable {m : Machine} {i : Instruction} {change : Change}

/-- Nothing but an allocation or a deletion touches the heap itself. -/
theorem HeapInvariant.of_live_cells {m' : Machine} (inv : HeapInvariant m)
    (hsize : m'.arena.size = m.arena.size) (hlive : m'.live = m.live) (hheap : m'.heap = m.heap)
    (hcells : ∀ a c, m.arena.cell? a = some c → c.live = true →
      ∃ c', m'.arena.cell? a = some c' ∧ c'.live = true) : HeapInvariant m' := by
  refine ⟨by rw [hsize]; exact inv.size_lt, ?_, ?_, ?_⟩
  · intro a ha
    rw [hlive] at ha
    obtain ⟨c, hc, hl⟩ := inv.allocated a ha
    exact hcells a c hc hl
  · rw [hlive, hheap]
    exact inv.bound
  · rw [hlive, hheap]
    exact inv.attained

theorem put_keeps_live {arena : Arena} {address : Int64} {w : Word}
    (hin : arena.contains address) {a : Int64} {c : Cell} (hc : arena.cell? a = some c)
    (hl : c.live = true) : ∃ c', (arena.put address w).cell? a = some c' ∧ c'.live = true := by
  rw [Arena.cell?_put hin]
  by_cases he : a = address
  · exact ⟨_, if_pos he, rfl⟩
  · exact ⟨c, by rw [if_neg he, hc], hl⟩

/-- An allocation takes a free cell inside the arena. -/
theorem Decides.allocate_free {rs : Registers} {arena : Arena} {a : Int64} {w : Word}
    (hsize : arena.size < 2 ^ 63) (h : Decides rs arena i (.allocate a w)) :
    ∃ c, arena.cell? a = some c ∧ c.live = false := by
  cases h with
  | allocate op source names top free room =>
    have hlt := Arena.firstFree?_lt free
    exact Arena.firstFree?_eq_some (by omega) free

theorem heapInvariant_allocate (inv : HeapInvariant m) {a : Int64} {w : Word}
    (h : Decides m.registers m.arena i (.allocate a w)) :
    HeapInvariant (m.apply (.allocate a w)) := by
  obtain ⟨c, hc, hfree⟩ := h.allocate_free inv.size_lt
  have hin := Arena.contains_of_cell? hc
  refine ⟨by simpa [apply] using inv.size_lt, ?_, ?_, ?_⟩
  · intro x hx
    rcases List.mem_insert_iff.mp hx with rfl | hx
    · exact ⟨_, by rw [apply, Arena.cell?_put hin, if_pos rfl], rfl⟩
    · obtain ⟨c', hc', hl⟩ := inv.allocated x hx
      exact put_keeps_live hin hc' hl
  · intro x hx
    change x.toInt ≤ (max m.heap a).toInt
    rw [Word.toInt_max]
    rcases List.mem_insert_iff.mp hx with rfl | hx
    · omega
    · have hb := inv.bound x hx
      omega
  · left
    change max m.heap a ∈ m.live.insert a
    rw [List.mem_insert_iff]
    by_cases hle : m.heap ≤ a
    · exact .inl (if_pos hle)
    · have hmax : max m.heap a = m.heap := if_neg hle
      rcases inv.attained with hmem | ⟨-, hnone⟩
      · exact .inr (by rw [hmax]; exact hmem)
      · -- A frontier below the arena is not above the new address.
        have hminus : (-1 : Int64).toInt = -1 := rfl
        have hpos := (Arena.contains_iff.mp hin).1
        rw [hnone, Int64.le_iff_toInt_le, hminus] at hle
        omega

theorem heapInvariant_release (inv : HeapInvariant m) {a : Int64} (hin : m.arena.contains a) :
    HeapInvariant (m.apply (.release a)) := by
  have hcells : ∀ x ∈ m.live, x ≠ a →
      ∃ c, (m.arena.release a).cell? x = some c ∧ c.live = true := by
    intro x hx hne
    rw [Arena.cell?_release hin, if_neg hne]
    exact inv.allocated x hx
  by_cases hmem : a ∈ m.live
  · have hkeep : ∀ x, x ∈ m.live.filter (· ≠ a) ↔ x ∈ m.live ∧ x ≠ a := by
      intro x
      simp
    have happly : m.apply (.release a) = { m with
        arena := m.arena.release a
        live := m.live.filter (· ≠ a)
        heap := if a = m.heap then Machine.frontier (m.live.filter (· ≠ a)) else m.heap } := by
      rw [apply, forget, if_pos hmem]
    have hpos : ∀ x ∈ m.live.filter (· ≠ a), 0 ≤ x.toInt := fun x hx =>
      (Arena.contains_iff.mp (inv.contains ((hkeep x).mp hx).1)).1
    rw [happly]
    refine ⟨by simpa using inv.size_lt, ?_, ?_, ?_⟩
    · intro x hx
      obtain ⟨hx, hne⟩ := (hkeep x).mp hx
      exact hcells x hx hne
    · intro x hx
      change x.toInt ≤ (if a = m.heap then _ else m.heap).toInt
      split
      · exact le_frontier hx
      · exact inv.bound x ((hkeep x).mp hx).1
    · change (if a = m.heap then _ else m.heap) ∈ _ ∨ _ ∧ (if a = m.heap then _ else m.heap) = _
      split
      · exact frontier_mem hpos
      · next hne =>
        rcases inv.attained with htop | ⟨hnil, -⟩
        · exact .inl ((hkeep _).mpr ⟨htop, fun he => hne he.symm⟩)
        · rw [hnil] at hmem
          cases hmem
  · have happly : m.apply (.release a) = { m with arena := m.arena.release a } := by
      rw [apply, forget, if_neg hmem]
    rw [happly]
    refine ⟨by simpa using inv.size_lt, ?_, inv.bound, inv.attained⟩
    intro x hx
    exact hcells x hx (fun he => hmem (he ▸ hx))

/-- **Every decided change keeps the heap invariant.** -/
theorem heapInvariant_apply (inv : HeapInvariant m)
    (h : Decides m.registers m.arena i change) : HeapInvariant (m.apply change) := by
  cases change with
  | nothing => exact inv
  | assign r w => exact inv.of_live_cells rfl rfl rfl fun _ c hc hl => ⟨c, hc, hl⟩
  | push a w =>
    cases h with
    | push op source top room =>
      exact inv.of_live_cells (by simp [apply]) rfl rfl fun _ _ hc hl => put_keeps_live room hc hl
  | store a w =>
    cases h with
    | store op source names other holds room =>
      exact inv.of_live_cells (by simp [apply]) rfl rfl fun _ _ hc hl => put_keeps_live room hc hl
  | allocate a w => exact heapInvariant_allocate inv h
  | release a =>
    cases h with
    | release op names holds room => exact heapInvariant_release inv room
  | print text => exact inv
  | jump target => exact inv.of_live_cells rfl rfl rfl fun _ c hc hl => ⟨c, hc, hl⟩
  | call target => exact inv.of_live_cells rfl rfl rfl fun _ c hc hl => ⟨c, hc, hl⟩

end Step

theorem HeapInvariant.advanced {m : Machine} (inv : HeapInvariant m) :
    HeapInvariant m.started.advance :=
  ⟨inv.size_lt, inv.allocated, inv.bound, inv.attained⟩

theorem heapInvariant_settled {m : Machine} (i : Instruction) (inv : HeapInvariant m) :
    HeapInvariant (m.settled i) :=
  inv.of_live_cells (by simp) (by simp) (by simp) fun _ c hc hl => ⟨c, by simpa using hc, hl⟩

theorem heapInvariant_step {mode : TraceMode} {m m' : Machine} {events : List Event}
    (inv : HeapInvariant m) (h : Stepped mode m m' events) : HeapInvariant m' := by
  rcases h.frame_or_executes with ⟨harena, hlive, hheap, -⟩ | ⟨i, change, -, -, plan, rfl⟩
  · exact inv.of_live_cells (by rw [harena]) hlive hheap
      fun _ c hc hl => ⟨c, by rw [harena, hc], hl⟩
  · exact heapInvariant_settled i (heapInvariant_apply inv.advanced (decides_of_plan plan))

theorem heapInvariant_load (size : Int64) (code : Array Instruction) :
    HeapInvariant (Machine.load size code) := by
  refine ⟨?_, by simp [Machine.load], by simp [Machine.load], .inr ⟨rfl, rfl⟩⟩
  change (Arena.ofSize size).size < 2 ^ 63
  rw [Arena.size_ofSize]
  exact size.toNatClampNeg_lt

theorem heapInvariant_run {mode : TraceMode} {size : Int64} {code : Array Instruction}
    {ts : List Transition} {m : Machine} (run : Run mode (Machine.load size code) ts m) :
    HeapInvariant m :=
  run.invariant (heapInvariant_load size code) fun _ _ _ _ _ inv h => heapInvariant_step inv h

/-! ### The arena -/

section Size

variable {mode : TraceMode} {size : Int64} {code : Array Instruction} {ts : List Transition}
  {m : Machine}

theorem arena_size_step {m' : Machine} {events : List Event} (h : Stepped mode m m' events) :
    m'.arena.size = m.arena.size := by
  rcases h.frame_or_executes with ⟨harena, -⟩ | ⟨i, change, -, -, -, rfl⟩
  · rw [harena]
  · rw [settled_arena]
    cases change with
    | push a w => exact Arena.size_put _ _ _
    | store a w => exact Arena.size_put _ _ _
    | allocate a w => exact Arena.size_put _ _ _
    | release a => rw [apply, forget_arena]; exact Arena.size_release _ _
    | _ => rfl

/-- The size of the arena never changes. -/
theorem arena_size_run (run : Run mode (Machine.load size code) ts m) :
    m.arena.size = size.toNatClampNeg :=
  run.invariant (P := fun _ m => m.arena.size = size.toNatClampNeg) (Arena.size_ofSize size)
    fun _ _ _ _ _ ih h => (arena_size_step h).trans ih

/-- An address in the arena of a machine that was loaded with `size` cells. -/
theorem bounds_of_contains (run : Run mode (Machine.load size code) ts m) {a : Int64}
    (hin : m.arena.contains a) : 0 ≤ a ∧ a < size := by
  obtain ⟨hlow, hhigh⟩ := Arena.contains_iff.mp hin
  have hzero : (0 : Int64).toInt = 0 := rfl
  rw [arena_size_run run, Int64.toNatClampNeg] at hhigh
  rw [Int64.le_iff_toInt_le, Int64.lt_iff_toInt_lt, hzero]
  omega

end Size

/-! ### Allocated addresses, from the executed instructions -/

namespace Transition

/-- The step has executed a store through the heap cursor, which returned `a`. -/
def Allocates (t : Transition) (a : Int64) : Prop :=
  ∃ i, t.Executes i ∧ i.op = .sw ∧ Register.ofToken? i.arg2 = some .hp ∧
    t.after.registers.a0 = some a

/-- The step has executed a deletion of `a`. -/
def Deletes (t : Transition) (a : Int64) : Prop :=
  ∃ i r, t.Executes i ∧ i.op = .del ∧ Register.ofToken? i.arg1 = some r ∧
    t.before.registers.get r = some a

/-- The step has executed a store through another register, whose effective address was `a`. -/
def Stores (t : Transition) (a : Int64) : Prop :=
  ∃ i base b, t.Executes i ∧ i.op = .sw ∧ Register.ofToken? i.arg2 = some base ∧ base ≠ .hp ∧
    t.before.registers.get base = some b ∧ b + i.offset = a

end Transition

/-- An allocation has returned `a`, and no deletion has given it back since. -/
def Outstanding (ts : List Transition) (a : Int64) : Prop :=
  ∃ earlier t later, ts = earlier ++ t :: later ∧ t.Allocates a ∧ ∀ u ∈ later, ¬ u.Deletes a

theorem not_outstanding_nil (a : Int64) : ¬ Outstanding [] a := by
  rintro ⟨earlier, t, later, h, -⟩
  simp at h

theorem outstanding_snoc {ts : List Transition} {t : Transition} {a : Int64} :
    Outstanding (ts ++ [t]) a ↔ t.Allocates a ∨ Outstanding ts a ∧ ¬ t.Deletes a := by
  constructor
  · rintro ⟨earlier, u, later, h, halloc, hkept⟩
    rcases List.eq_nil_or_concat later with rfl | ⟨front, last, rfl⟩
    · obtain ⟨-, rfl⟩ := List.append_inj' h rfl |>.imp id List.singleton_inj.mp
      exact .inl halloc
    · have hsplit : ts ++ [t] = (earlier ++ u :: front) ++ [last] := by simpa using h
      obtain ⟨hts, hlast⟩ := List.append_inj' hsplit rfl
      obtain rfl := List.singleton_inj.mp hlast
      refine .inr ⟨⟨earlier, u, front, hts, halloc, fun v hv => hkept v ?_⟩, hkept t ?_⟩
      · simp [hv]
      · simp
  · rintro (halloc | ⟨⟨earlier, u, later, rfl, halloc, hkept⟩, hnot⟩)
    · exact ⟨ts, t, [], rfl, halloc, by simp⟩
    · refine ⟨earlier, u, later ++ [t], by simp, halloc, ?_⟩
      intro v hv
      rcases List.mem_append.mp hv with hv | hv
      · exact hkept v hv
      · rw [List.mem_singleton.mp hv]
        exact hnot

section Executed

variable {mode : TraceMode} {m m' : Machine} {events : List Event} {i : Instruction}
  {change : Change} {a : Int64}

/-- An executed instruction returns an address exactly when its change is an allocation. -/
theorem allocates_iff (h : Stepped mode m m' events)
    (he : Transition.Executes ⟨m, events, m'⟩ i) (plan : m.plan i = .ok change)
    (next : m' = (m.started.advance.apply change).settled i) :
    Transition.Allocates ⟨m, events, m'⟩ a ↔ ∃ w, change = .allocate a w := by
  constructor
  · rintro ⟨j, hj, op, names, returned⟩
    obtain rfl := h.executes_unique he hj
    cases decides_of_plan plan with
    | allocate op' source names' top free room =>
      rw [next, settled_registers] at returned
      exact ⟨_, by rw [← Option.some.inj returned]⟩
    | store op' source names' other holds room =>
      exact absurd (Option.some.inj (names'.symm.trans names)) other
    | _ => simp_all
  · rintro ⟨w, rfl⟩
    cases decides_of_plan plan with
    | allocate op source names top free room =>
      exact ⟨i, he, op, names, by rw [next, settled_registers]; rfl⟩

/-- An executed instruction gives an address back exactly when its change is a release. -/
theorem deletes_iff (h : Stepped mode m m' events)
    (he : Transition.Executes ⟨m, events, m'⟩ i) (plan : m.plan i = .ok change) :
    Transition.Deletes ⟨m, events, m'⟩ a ↔ change = .release a := by
  constructor
  · rintro ⟨j, r, hj, op, names, holds⟩
    obtain rfl := h.executes_unique he hj
    cases decides_of_plan plan with
    | release op' names' holds' room =>
      obtain rfl := Option.some.inj (names'.symm.trans names)
      rw [Option.some.inj (holds'.symm.trans holds)]
    | _ => simp_all
  · rintro rfl
    cases decides_of_plan plan with
    | release op names holds room => exact ⟨i, _, he, op, names, holds⟩

/-- How the allocated addresses change with an executed instruction. -/
theorem mem_live_apply :
    a ∈ (m.apply change).live ↔
      (∃ w, change = .allocate a w) ∨ a ∈ m.live ∧ change ≠ .release a := by
  cases change with
  | allocate x w =>
    simp only [apply, List.mem_insert_iff, Change.allocate.injEq, exists_and_left, exists_eq',
      and_true, ne_eq, reduceCtorEq, not_false_eq_true, eq_comm]
  | release x =>
    by_cases hx : x ∈ m.live
    · have hne : a ≠ x ↔ x ≠ a := ne_comm
      simp [apply, forget, hx, hne]
    · simp only [apply, forget, hx, reduceIte, reduceCtorEq, exists_false, false_or, ne_eq,
        Change.release.injEq]
      constructor
      · exact fun ha => ⟨ha, fun he => hx (he ▸ ha)⟩
      · exact And.left
  | _ => simp [apply, setRegister]

end Executed

/-- **The machine keeps exactly the outstanding addresses.** -/
theorem outstanding_iff_live {mode : TraceMode} {size : Int64} {code : Array Instruction}
    {ts : List Transition} {m : Machine} (run : Run mode (Machine.load size code) ts m) :
    ∀ a, Outstanding ts a ↔ a ∈ m.live := by
  refine run.invariant (P := fun ts m => ∀ a, Outstanding ts a ↔ a ∈ m.live) ?_ ?_
  · intro a
    simpa [Machine.load] using not_outstanding_nil a
  · intro ts m m' events _ ih h a
    rw [outstanding_snoc, ih a]
    rcases h.frame_or_executes with ⟨-, hlive, -, hnone⟩ | ⟨i, change, he, -, plan, next⟩
    · have halloc : ¬ Transition.Allocates ⟨m, events, m'⟩ a := fun ⟨i, hi, _⟩ => hnone i hi
      have hdel : ¬ Transition.Deletes ⟨m, events, m'⟩ a := fun ⟨i, _, hi, _⟩ => hnone i hi
      simp [halloc, hdel, hlive]
    · rw [allocates_iff h he plan next, deletes_iff h he plan, next, settled_live, mem_live_apply]
      rfl

/-! ### The frontier -/

/-- The heap of a machine that was loaded with `size` cells and has taken the steps `ts`. -/
structure HeapFrontier (size : Int64) (ts : List Transition) (m : Machine) : Prop where
  /-- The machine keeps the addresses that an allocation has returned and no deletion has given
  back since, and no others. -/
  kept : ∀ a, a ∈ m.live ↔ Outstanding ts a
  /-- Each of them lies in the arena, and its cell is live. -/
  inside : ∀ a ∈ m.live, (0 ≤ a ∧ a < size) ∧ ∃ c, m.arena.cell? a = some c ∧ c.live = true
  /-- The frontier is the highest of them. -/
  highest : m.live ≠ [] → IsGreatest {a | a ∈ m.live} m.heap
  /-- With nothing allocated the frontier is just below the arena. -/
  lowest : m.live = [] → m.heap = -1

/-- **The cached frontier is right after every run**, however a program moves its registers and
whatever it frees. -/
theorem heap_frontier {mode : TraceMode} {size : Int64} {code : Array Instruction}
    {ts : List Transition} {m : Machine} (run : Run mode (Machine.load size code) ts m) :
    HeapFrontier size ts m := by
  have inv := heapInvariant_run run
  refine ⟨fun a => (outstanding_iff_live run a).symm, fun a ha => ?_, fun hsome => ?_,
    fun hnone => ?_⟩
  · exact ⟨bounds_of_contains run (inv.contains ha), inv.allocated a ha⟩
  · refine ⟨inv.attained.resolve_right fun hnil => hsome hnil.1, fun a ha => ?_⟩
    exact Int64.le_iff_toInt_le.mpr (inv.bound a ha)
  · refine (inv.attained.resolve_left fun hmem => ?_).2
    rw [hnone] at hmem
    cases hmem

/-- Allocates three cells and frees the last of them, then a cell that was never allocated. -/
def allocateThenFree : Array Instruction :=
  #[.memory .sw "$t1" 0 "$hp", .memory .sw "$t1" 0 "$hp", .memory .sw "$sp" 0 "$hp",
    .ofArgs .del ["$a0"] 0, .ofArgs .del ["$fp"] 0]

/-- The frontier falls back to the second of three cells when the third is freed. -/
theorem heap_frontier_lowered :
    ∃ ts m, Run .off (Machine.load 8 allocateThenFree) ts m ∧ m.live = [1, 0] ∧ m.heap = 1 ∧
      HeapFrontier 8 ts m := by
  have hafter : ((Machine.load 8 allocateThenFree).after? .off 5).map
      (fun m => (m.live, m.heap)) = some ([1, 0], 1) := by decide +kernel
  obtain ⟨m, hm, hheap⟩ := Option.map_eq_some_iff.mp hafter
  obtain ⟨hlive, htop⟩ := Prod.mk.inj hheap
  obtain ⟨ts, run⟩ := Run.of_after? hm
  exact ⟨ts, m, run, hlive, htop, heap_frontier run⟩

end RegisterMachine
