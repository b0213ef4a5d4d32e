import Mathlib.Data.List.Forall2
import RegisterMachine.Machine.Session
import RegisterMachine.Proofs.Machine.Heap

/-!
# What freed cells still hold

A freed cell keeps its word until it is written again. The word is a residue: two machines that
differ in residues alone take the same steps, print the same texts and stop at the same faults, and
they differ in residues alone ever after. Dumps show every cell, so the machines are compared with
dumps switched off.
-/

set_option autoImplicit false

namespace RegisterMachine

open Machine

/-! ### Cells and arenas -/

/-- Both cells are free, or both are live and hold the same word. -/
structure Cell.Agrees (c d : Cell) : Prop where
  live : c.live = d.live
  value : c.live = true → c.value = d.value

/-- The arenas have the same size, the same live cells and the same words in them. -/
structure Arena.Agrees (a b : Arena) : Prop where
  size : a.size = b.size
  cells : ∀ {k : Nat} {c d : Cell}, a.cells[k]? = some c → b.cells[k]? = some d → c.Agrees d

namespace Arena.Agrees

variable {a b : Arena}

theorem symm (h : a.Agrees b) : b.Agrees a := by
  refine ⟨h.size.symm, fun hd hc => ?_⟩
  obtain ⟨live, value⟩ := h.cells hc hd
  exact ⟨live.symm, fun hl => (value (live.trans hl)).symm⟩

theorem contains_eq (h : a.Agrees b) (i : Int64) : a.contains i = b.contains i := by
  rw [Arena.contains, Arena.contains, h.size]

theorem outside_eq (h : a.Agrees b) (i : Int64) : a.outside i = b.outside i := by
  rw [Arena.outside, Arena.outside, h.size]

/-- An index that has a cell in one arena has one in the other. -/
theorem exists_cell (h : a.Agrees b) {k : Nat} {c : Cell} (hc : a.cells[k]? = some c) :
    ∃ d, b.cells[k]? = some d ∧ c.Agrees d := by
  have hlt : k < a.cells.size := (Array.getElem?_eq_some_iff.mp hc).1
  have hsize : a.cells.size = b.cells.size := h.size
  have hd : b.cells[k]? = some b.cells[k] := Array.getElem?_eq_getElem (by omega)
  exact ⟨_, hd, h.cells hc hd⟩

theorem cell?_none (h : a.Agrees b) {i : Int64} (hi : a.cell? i = none) : b.cell? i = none := by
  have hno : ¬ a.contains i = true := by
    rw [← Arena.isSome_cell?, hi]
    simp
  rw [h.contains_eq, ← Arena.isSome_cell?] at hno
  simpa using hno

theorem cell?_some (h : a.Agrees b) {i : Int64} {c : Cell} (hi : a.cell? i = some c) :
    ∃ d, b.cell? i = some d ∧ c.Agrees d := by
  have hpos := (Arena.contains_iff.mp (Arena.contains_of_cell? hi)).1
  rw [Arena.cell?_of_nonneg hpos] at hi ⊢
  exact h.exists_cell hi

/-- A read sees live cells only. -/
theorem read_eq (h : a.Agrees b) (i : Int64) : a.read i = b.read i := by
  cases ha : a.cell? i with
  | none => simp only [Arena.read, ha, h.cell?_none ha, h.outside_eq]
  | some c =>
    obtain ⟨d, hb, live, value⟩ := h.cell?_some ha
    obtain ⟨w, l⟩ := c
    obtain ⟨w', l'⟩ := d
    obtain rfl : l = l' := live
    have hun : a.unwritten i = b.unwritten i := by
      rw [Arena.unwritten, Arena.unwritten, h.size]
    cases l with
    | false => simp only [Arena.read, ha, hb, hun]
    | true =>
      obtain rfl : w = w' := value rfl
      cases w with
      | none => simp only [Arena.read, ha, hb, hun]
      | some n => simp only [Arena.read, ha, hb]

/-- The search for a free cell looks at nothing but whether cells are live. -/
theorem firstFree_eq (h : a.Agrees b) : a.firstFree = b.firstFree := by
  have hflags : a.cells.map Cell.live = b.cells.map Cell.live := by
    have hsize : a.cells.size = b.cells.size := h.size
    refine Array.ext (by simpa using hsize) fun k hka hkb => ?_
    simp only [Array.size_map] at hka hkb
    have hc := h.cells (Array.getElem?_eq_getElem hka) (Array.getElem?_eq_getElem hkb)
    simpa using hc.live
  have hsearch : ∀ x : Arena, x.firstFree? = (x.cells.map Cell.live).findIdx? (! ·) := by
    intro x
    rw [Arena.firstFree?, Array.findIdx?_map]
    rfl
  rw [Arena.firstFree, Arena.firstFree, hsearch, hsearch, hflags, h.size]

theorem put (h : a.Agrees b) (i : Int64) (w : Word) : (a.put i w).Agrees (b.put i w) := by
  refine ⟨by simpa using h.size, fun {k c d} hc hd => ?_⟩
  unfold Arena.put at hc hd
  split at hc
  · next hneg =>
    rw [if_pos hneg] at hd
    exact h.cells hc hd
  · next hpos =>
    rw [if_neg hpos] at hd
    rw [Array.getElem?_setIfInBounds] at hc hd
    by_cases hk : i.toNatClampNeg = k
    · rw [if_pos hk] at hc hd
      split at hc
      · split at hd
        · cases hc
          cases hd
          exact ⟨rfl, fun _ => rfl⟩
        · cases hd
      · cases hc
    · rw [if_neg hk] at hc hd
      exact h.cells hc hd

theorem release (h : a.Agrees b) (i : Int64) : (a.release i).Agrees (b.release i) := by
  refine ⟨by simpa using h.size, fun {k c d} hc hd => ?_⟩
  unfold Arena.release at hc hd
  split at hc
  · next hneg =>
    rw [if_pos hneg] at hd
    exact h.cells hc hd
  · next hpos =>
    rw [if_neg hpos] at hd
    rw [Array.getElem?_modify] at hc hd
    by_cases hk : i.toNatClampNeg = k
    · rw [if_pos hk] at hc hd
      obtain ⟨_, _, rfl⟩ := Option.map_eq_some_iff.mp hc
      obtain ⟨_, _, rfl⟩ := Option.map_eq_some_iff.mp hd
      exact ⟨rfl, fun hl => nomatch hl⟩
    · rw [if_neg hk] at hc hd
      exact h.cells hc hd

end Arena.Agrees

/-! ### Machines -/

/-- The machines differ at most in the words of free cells, and in whether a first step has been
taken, which no instruction can tell. -/
structure Machine.Agrees (m n : Machine) : Prop where
  code : m.code = n.code
  registers : m.registers = n.registers
  pc : m.pc = n.pc
  steps : m.steps = n.steps
  heap : m.heap = n.heap
  status : m.status = n.status
  live : ∀ a, a ∈ m.live ↔ a ∈ n.live
  arena : m.arena.Agrees n.arena

namespace Machine.Agrees

variable {m n : Machine}

theorem symm (h : m.Agrees n) : n.Agrees m :=
  ⟨h.code.symm, h.registers.symm, h.pc.symm, h.steps.symm, h.heap.symm, h.status.symm,
    fun a => (h.live a).symm, h.arena.symm⟩

theorem view_eq (h : m.Agrees n) : m.view = n.view := by
  simp only [view, h.pc, h.steps, h.status, h.registers]

theorem isRunning_eq (h : m.Agrees n) : m.isRunning = n.isRunning := by
  rw [isRunning, isRunning, h.status]

theorem fault?_eq (h : m.Agrees n) : m.fault? = n.fault? := by
  rw [fault?, fault?, h.status]

theorem checkGap_eq (h : m.Agrees n) : m.checkGap = n.checkGap := by
  simp only [checkGap, h.registers, h.heap]

theorem fetch?_eq (h : m.Agrees n) : m.fetch? = n.fetch? := by
  simp only [fetch?, h.pc, h.code]

/-- **What an instruction does is decided without a look at free cells.** -/
theorem plan_eq (h : m.Agrees n) (i : Instruction) : m.plan i = n.plan i := by
  have hin := h.arena.contains_eq
  have hout := h.arena.outside_eq
  have hread := h.arena.read_eq
  have hfree := h.arena.firstFree_eq
  unfold plan
  cases i.op <;>
    simp only [planPush, planPop, planLoad, planStore, planAllocate, planMove, planArithmetic,
      planConnective, planNot, planDelete, planPrint, planPrintChar, planBranchEqual,
      planBranchLessEqual, planReturn, operandWord, operandValue, operandTruth, h.registers, hin,
      hout, hread, hfree]

theorem started (h : m.Agrees n) : m.started.Agrees n.started :=
  ⟨h.code, h.registers, h.pc, h.steps, h.heap, h.status, h.live, h.arena⟩

theorem advance (h : m.Agrees n) : m.advance.Agrees n.advance :=
  ⟨h.code, h.registers, congrArg (· + 1) h.pc, congrArg (· + 1) h.steps, h.heap, h.status, h.live,
    h.arena⟩

theorem fail (h : m.Agrees n) (f : Fault) : (m.fail f).Agrees (n.fail f) :=
  ⟨h.code, h.registers, h.pc, h.steps, h.heap, rfl, h.live, h.arena⟩

theorem setRegister (h : m.Agrees n) (r : Register) (w : Word) :
    (m.setRegister r w).Agrees (n.setRegister r w) :=
  ⟨h.code, congrArg (Registers.set · r w) h.registers, h.pc, h.steps, h.heap, h.status, h.live,
    h.arena⟩

theorem settled (h : m.Agrees n) (i : Instruction) : (m.settled i).Agrees (n.settled i) := by
  unfold Machine.settled
  split
  · exact ⟨h.code, h.registers, h.pc, h.steps, h.heap, rfl, h.live, h.arena⟩
  · exact h

theorem withArena (h : m.Agrees n) {a b : Arena} (hab : a.Agrees b) :
    Machine.Agrees { m with arena := a } { n with arena := b } :=
  ⟨h.code, h.registers, h.pc, h.steps, h.heap, h.status, h.live, hab⟩

/-- Which addresses are allocated decides what is left when one is given back. -/
theorem forget (h : m.Agrees n) (a : Int64) : (m.forget a).Agrees (n.forget a) := by
  have hkept : ∀ x, x ∈ m.live.filter (· ≠ a) ↔ x ∈ n.live.filter (· ≠ a) := by
    intro x
    simp [h.live x]
  unfold Machine.forget
  by_cases hmem : a ∈ m.live
  · rw [if_pos hmem, if_pos ((h.live a).mp hmem)]
    refine ⟨h.code, h.registers, h.pc, h.steps, ?_, h.status, hkept, h.arena⟩
    change (if a = m.heap then _ else m.heap) = (if a = n.heap then _ else n.heap)
    rw [h.heap, frontier_congr hkept]
  · rw [if_neg hmem, if_neg fun hn => hmem ((h.live a).mpr hn)]
    exact h

theorem apply (h : m.Agrees n) (change : Change) : (m.apply change).Agrees (n.apply change) := by
  cases change with
  | nothing => exact h
  | assign r w => exact h.setRegister r w
  | push a w => exact (h.withArena (h.arena.put a w)).setRegister .sp (some a)
  | store a w => exact h.withArena (h.arena.put a w)
  | allocate a w =>
    refine ⟨h.code, congrArg (Registers.set · .a0 (some a)) h.registers, h.pc, h.steps,
      congrArg (max · a) h.heap, h.status, fun x => ?_, h.arena.put a w⟩
    change x ∈ m.live.insert a ↔ x ∈ n.live.insert a
    rw [List.mem_insert_iff, List.mem_insert_iff, h.live]
  | release a => exact (h.withArena (h.arena.release a)).forget a
  | print text => exact h
  | jump target => exact ⟨h.code, h.registers, rfl, h.steps, h.heap, h.status, h.live, h.arena⟩
  | call target =>
    refine ⟨h.code, ?_, rfl, h.steps, h.heap, h.status, h.live, h.arena⟩
    change m.registers.set .ra (some m.pc) = n.registers.set .ra (some n.pc)
    rw [h.registers, h.pc]

end Machine.Agrees

/-! ### Steps -/

/-- What the step has printed. -/
def Transition.output (t : Transition) : String :=
  textOf Event.printedText t.events

/-- What the step returns to its caller: the fault that has stopped the machine, if there is one. -/
def Transition.error? (t : Transition) : Option Fault :=
  t.after.fault?

/-- Two steps that cannot be told apart, and that lead to states that agree. -/
structure SameSeen (t u : Transition) : Prop where
  output : t.output = u.output
  error : t.error? = u.error?
  after : t.after.Agrees u.after
  /-- Whether an observer is greeted depends on the first step alone; apart from that, it is told
  the same. -/
  events : t.before.begun = u.before.begun →
    t.events = u.events ∧ t.after.begun = u.after.begun

theorem output_opening (m : Machine) (rest : List Event) :
    textOf Event.printedText (m.opening ++ rest) = textOf Event.printedText rest := by
  unfold opening
  split <;> rfl

section Steps

variable {m m' n : Machine} {events : List Event}

/-- Steps that show the same behind their openings. -/
theorem sameSeen_of_rest {n' : Machine} {rest : List Event} (h : m'.Agrees n')
    (size : m.arena.size = n.arena.size) (code : m.code = n.code) (view : m.view = n.view)
    (began : m'.begun = true) (began' : n'.begun = true) :
    SameSeen ⟨m, m.opening ++ rest, m'⟩ ⟨n, n.opening ++ rest, n'⟩ := by
  refine ⟨?_, h.fault?_eq, h, fun hbegun => ⟨?_, began.trans began'.symm⟩⟩
  · exact (output_opening m rest).trans (output_opening n rest).symm
  · have hopening : m.opening = n.opening := by
      have hb : m.begun = n.begun := hbegun
      simp only [opening, hb, size, code, view]
    exact congrArg (· ++ rest) hopening

/-- **Agreeing machines step alike.** -/
theorem Stepped.follow (h : m.Agrees n) (way : Stepped .off m m' events) :
    ∃ n' events', Stepped .off n n' events' ∧ SameSeen ⟨m, events, m'⟩ ⟨n, events', n'⟩ := by
  have hgap := h.checkGap_eq
  have hfetch := h.fetch?_eq
  have hrunning := h.isRunning_eq
  -- With dumps switched off, a machine shows nothing of its arena when it stops.
  have hclosing : ∀ {x y : Machine}, x.Agrees y → x.closing .off = y.closing .off := by
    intro x y hxy
    simp only [closing, if_true, hxy.fault?_eq, hxy.view_eq]
  cases way with
  | idle stopped => exact ⟨n, [], .idle (hrunning ▸ stopped), rfl, h.fault?_eq, h, fun hb => ⟨rfl, hb⟩⟩
  | @refused cause _ running gap next =>
    have hnext := h.started.fail (.ofCause cause m.pc {})
    have way : Stepped .off n _ _ := .refused (hrunning ▸ running) (hgap ▸ gap) rfl
    rw [← h.pc] at way
    subst next
    rw [hclosing hnext]
    exact ⟨_, _, way, sameSeen_of_rest hnext h.arena.size h.code h.view_eq rfl rfl⟩
  | lost running gap fetched next =>
    have hnext := h.started.fail (.ofCause (.noInstruction m.pc m.code.size) m.pc {})
    have way : Stepped .off n _ _ := .lost (hrunning ▸ running) (hgap ▸ gap) (hfetch ▸ fetched) rfl
    rw [← h.pc, ← h.code] at way
    subst next
    rw [hclosing hnext]
    exact ⟨_, _, way, sameSeen_of_rest hnext h.arena.size h.code h.view_eq rfl rfl⟩
  | @faulted i cause _ running gap fetched refusal next =>
    have hnext := h.started.advance.fail (.ofCause cause m.pc i)
    have way : Stepped .off n _ _ := .faulted (hrunning ▸ running) (hgap ▸ gap) (hfetch ▸ fetched)
      (h.plan_eq i ▸ refusal) rfl
    rw [← h.pc, ← h.view_eq] at way
    subst next
    rw [hclosing hnext]
    exact ⟨_, _, way, sameSeen_of_rest hnext h.arena.size h.code h.view_eq rfl rfl⟩
  | @overrun i sp error _ running gap fetched refusal next =>
    have hnext := (h.started.advance.setRegister .sp (some sp)).fail (.ofCause (.memory error) m.pc i)
    have way : Stepped .off n _ _ := .overrun (hrunning ▸ running) (hgap ▸ gap) (hfetch ▸ fetched)
      (h.plan_eq i ▸ refusal) rfl
    rw [← h.pc, ← h.view_eq] at way
    subst next
    rw [hclosing hnext]
    exact ⟨_, _, way, sameSeen_of_rest hnext h.arena.size h.code h.view_eq rfl rfl⟩
  | @executed i change after running gap fetched plan next =>
    have hafter := h.started.advance.apply change
    have hlater : ∀ {x y : Machine}, x.Agrees y → x.aftermath .off i = y.aftermath .off i := by
      intro x y hxy
      have hhalt : x.halt.Agrees y.halt :=
        ⟨hxy.code, hxy.registers, hxy.pc, hxy.steps, hxy.heap, rfl, hxy.live, hxy.arena⟩
      simp only [aftermath, progress, hclosing hhalt, reduceCtorEq, if_false]
    have way : Stepped .off n _ _ := .executed (hrunning ▸ running) (hgap ▸ gap)
      (hfetch ▸ fetched) (h.plan_eq i ▸ plan) rfl
    rw [← h.pc, ← h.view_eq] at way
    subst next
    rw [hlater hafter, hafter.view_eq]
    refine ⟨_, _, way, sameSeen_of_rest (hafter.settled i) h.arena.size h.code h.view_eq ?_ ?_⟩
    · rw [settled_begun, apply_begun]
      rfl
    · rw [settled_begun, apply_begun]
      rfl

theorem step_eq_none_of_agrees (h : m.Agrees n) (trapped : n.step .off = none) :
    m.step .off = none := by
  cases hstep : m.step .off with
  | none => rfl
  | some result =>
    obtain ⟨n', events', way, -⟩ := Stepped.follow h (stepped_of_step hstep)
    rw [step_of_stepped way] at trapped
    cases trapped

end Steps

/-- **Freed words are never seen.** Machines that agree take the same number of steps, whatever
their free cells hold; corresponding steps print the same, return the same and lead to states that
agree, and a trap is met by both or by neither. -/
theorem freed_words_unseen {m m' n : Machine} {ts : List Transition} (h : m.Agrees n)
    (run : Run .off m ts m') :
    ∃ us n', Run .off n us n' ∧ List.Forall₂ SameSeen ts us ∧ m'.Agrees n' ∧
      (m'.step .off = none ↔ n'.step .off = none) := by
  suffices lockstep : ∃ us n', Run .off n us n' ∧ List.Forall₂ SameSeen ts us ∧ m'.Agrees n' by
    obtain ⟨us, n', run', seen, h'⟩ := lockstep
    exact ⟨us, n', run', seen, h', step_eq_none_of_agrees h'.symm, step_eq_none_of_agrees h'⟩
  refine run.invariant (P := fun ts m' => ∃ us n', Run .off n us n' ∧
    List.Forall₂ SameSeen ts us ∧ m'.Agrees n') ⟨[], n, .start, .nil, h⟩ ?_
  rintro ts m₁ m₂ events - ⟨us, n₁, run', seen, h'⟩ way
  obtain ⟨n₂, events', way', same⟩ := Stepped.follow h' way
  exact ⟨_, n₂, run'.step (step_of_stepped way'), List.rel_append seen (.cons same .nil), same.after⟩

/-- Allocates the first cell, prints what it has stored there, frees the cell and loads from it. -/
def reuseFreed : Array Instruction :=
  #[.ofArgs .li ["$t1", "65"] 0, .memory .sw "$t1" 0 "$hp", .memory .lw "$t1" 0 "$a0",
    .ofArgs .printchar ["$t1"] 0, .ofArgs .del ["$a0"] 0, .memory .lw "$t1" 0 "$a0"]

/-- A machine with `reuseFreed` on an arena of four free cells, the first of which holds `w`. -/
def machineWithResidue (w : Word) : Machine :=
  { Machine.load 4 reuseFreed with arena := ⟨#[{ value := w }, {}, {}, {}]⟩ }

theorem agrees_machineWithResidue (v w : Word) :
    (machineWithResidue v).Agrees (machineWithResidue w) := by
  refine ⟨rfl, rfl, rfl, rfl, rfl, rfl, fun _ => Iff.rfl, rfl, fun {k c d} hc hd => ?_⟩
  cases k with
  | zero =>
    cases hc
    cases hd
    exact ⟨rfl, fun hl => nomatch hl⟩
  | succ k =>
    have hsame : c = d := Option.some.inj (hc.symm.trans hd)
    exact hsame ▸ ⟨rfl, fun _ => rfl⟩

/-- Neither the allocation that takes the cell nor the load behind its release sees the residue. -/
theorem freed_words_unseen_reuse :
    (machineWithResidue (some 7)).Agrees (machineWithResidue none) ∧
      (machineWithResidue (some 7)).arena ≠ (machineWithResidue none).arena ∧
      ∃ ts m' us n', Run .off (machineWithResidue (some 7)) ts m' ∧
        m'.status = .faulted (.ofCause (.memory { kind := .uninitializedRead, index := 0, size := 4 })
          5 (.memory .lw "$t1" 0 "$a0")) ∧
        Run .off (machineWithResidue none) us n' ∧ List.Forall₂ SameSeen ts us ∧ m'.Agrees n' ∧
        (m'.step .off = none ↔ n'.step .off = none) := by
  have h := agrees_machineWithResidue (some 7) none
  have hafter : ((machineWithResidue (some 7)).after? .off 6).map (·.status) =
      some (.faulted (.ofCause (.memory { kind := .uninitializedRead, index := 0, size := 4 }) 5
        (.memory .lw "$t1" 0 "$a0"))) := by decide +kernel
  obtain ⟨m', hm, hstatus⟩ := Option.map_eq_some_iff.mp hafter
  obtain ⟨ts, run⟩ := Run.of_after? hm
  obtain ⟨us, n', rest⟩ := freed_words_unseen h run
  exact ⟨h, by decide, ts, m', us, n', run, hstatus, rest⟩

end RegisterMachine
