import RegisterMachine.Proofs.Checks
import RegisterMachine.Proofs.Machine.Execution

/-!
# What a step can do

A step goes one of six ways. `Stepped` names them with their guards, the state they lead to and
the events they show, so that no later proof has to look into `Machine.step` again. A run is a
sequence of steps, each of which is kept with the states it leads from and to.
-/

set_option autoImplicit false

namespace RegisterMachine

open Machine

namespace Machine

/-- The machine once its first step has started. -/
def started (m : Machine) : Machine :=
  { m with begun := true }

/-- The state after an executed instruction: only `halt` stops the machine. -/
def settled (i : Instruction) (m : Machine) : Machine :=
  if i.op = .halt then m.halt else m

/-- The events behind an executed instruction. -/
def aftermath (mode : TraceMode) (i : Instruction) (m : Machine) : List Event :=
  if i.op = .halt then m.halt.closing mode else progress mode i m

section Settled

variable (i : Instruction) (m : Machine)

@[simp] theorem settled_code : (m.settled i).code = m.code := by
  unfold settled; split <;> rfl

@[simp] theorem settled_registers : (m.settled i).registers = m.registers := by
  unfold settled; split <;> rfl

@[simp] theorem settled_arena : (m.settled i).arena = m.arena := by
  unfold settled; split <;> rfl

@[simp] theorem settled_live : (m.settled i).live = m.live := by
  unfold settled; split <;> rfl

@[simp] theorem settled_heap : (m.settled i).heap = m.heap := by
  unfold settled; split <;> rfl

@[simp] theorem settled_pc : (m.settled i).pc = m.pc := by
  unfold settled; split <;> rfl

@[simp] theorem settled_steps : (m.settled i).steps = m.steps := by
  unfold settled; split <;> rfl

@[simp] theorem settled_begun : (m.settled i).begun = m.begun := by
  unfold settled; split <;> rfl

end Settled

theorem apply_code (m : Machine) (change : Change) : (m.apply change).code = m.code := by
  cases change with
  | release address => rw [apply, forget]; split <;> rfl
  | _ => rfl

theorem apply_status (m : Machine) (change : Change) : (m.apply change).status = m.status := by
  cases change with
  | release address => rw [apply, forget]; split <;> rfl
  | _ => rfl

theorem apply_steps (m : Machine) (change : Change) : (m.apply change).steps = m.steps := by
  cases change with
  | release address => rw [apply, forget]; split <;> rfl
  | _ => rfl

theorem apply_begun (m : Machine) (change : Change) : (m.apply change).begun = m.begun := by
  cases change with
  | release address => rw [apply, forget]; split <;> rfl
  | _ => rfl

/-- An executed instruction halts or goes on; it does not fault. -/
theorem settled_status_ne {m : Machine} (h : m.status = .running) (i : Instruction) (f : Fault) :
    (m.settled i).status ≠ .faulted f := by
  unfold settled
  split
  · simp [halt]
  · simp [h]

theorem executed_status_ne {m : Machine} (running : m.isRunning = true) (change : Change)
    (i : Instruction) (f : Fault) :
    ((m.started.advance.apply change).settled i).status ≠ .faulted f := by
  refine settled_status_ne ?_ i f
  rw [apply_status]
  exact of_decide_eq_true running

theorem plan_started_advance (m : Machine) (i : Instruction) :
    m.started.advance.plan i = m.plan i := rfl

theorem checkGap_started (m : Machine) : m.started.checkGap = m.checkGap := rfl

theorem fetch?_started (m : Machine) : m.started.fetch? = m.fetch? := rfl

end Machine

theorem fetch?_eq_some {m : Machine} {i : Instruction} (h : m.fetch? = some i) :
    0 ≤ m.pc ∧ m.code[m.pc.toNatClampNeg]? = some i := by
  unfold fetch? at h
  split at h
  · cases h
  · next hpc => exact ⟨Int64.not_lt.mp hpc, h⟩

/-- A fetch needs a program counter inside the program. -/
theorem toInt_pc_of_fetch? {m : Machine} {i : Instruction} (h : m.fetch? = some i) :
    0 ≤ m.pc.toInt ∧ m.pc.toInt < m.code.size := by
  obtain ⟨hpos, hget⟩ := fetch?_eq_some h
  have hlt := (Array.getElem?_eq_some_iff.mp hget).1
  have hzero : (0 : Int64).toInt = 0 := rfl
  rw [Int64.le_iff_toInt_le, hzero] at hpos
  rw [Int64.toNatClampNeg] at hlt
  omega

/-- The ways of a step. -/
inductive Stepped (mode : TraceMode) (m : Machine) : Machine → List Event → Prop
  /-- A machine that has stopped stays as it is. -/
  | idle (stopped : m.isRunning = false) : Stepped mode m m []
  /-- Heap and stack have met, or one of their registers is absent. -/
  | refused {cause : Cause} {m' : Machine} (running : m.isRunning = true)
      (gap : m.checkGap = .error cause) (next : m' = m.started.fail (.ofCause cause m.pc {})) :
      Stepped mode m m' (m.opening ++ m'.closing mode)
  /-- The program counter points at no instruction. -/
  | lost {m' : Machine} (running : m.isRunning = true) (gap : m.checkGap = .ok ())
      (fetched : m.fetch? = none)
      (next : m' = m.started.fail (.ofCause (.noInstruction m.pc m.code.size) m.pc {})) :
      Stepped mode m m' (m.opening ++ m'.closing mode)
  | faulted {i : Instruction} {cause : Cause} {m' : Machine} (running : m.isRunning = true)
      (gap : m.checkGap = .ok ()) (fetched : m.fetch? = some i)
      (refusal : m.plan i = .error (.fault cause))
      (next : m' = m.started.advance.fail (.ofCause cause m.pc i)) :
      Stepped mode m m' (m.opening ++ .fetched m.pc i m.view :: m'.closing mode)
  /-- A push past the arena has moved the stack top. -/
  | overrun {i : Instruction} {sp : Int64} {error : ArenaError} {m' : Machine}
      (running : m.isRunning = true) (gap : m.checkGap = .ok ()) (fetched : m.fetch? = some i)
      (refusal : m.plan i = .error (.overrun sp error))
      (next : m' = (m.started.advance.setRegister .sp (some sp)).fail
        (.ofCause (.memory error) m.pc i)) :
      Stepped mode m m' (m.opening ++ .fetched m.pc i m.view :: m'.closing mode)
  | executed {i : Instruction} {change : Change} {after : Machine} (running : m.isRunning = true)
      (gap : m.checkGap = .ok ()) (fetched : m.fetch? = some i) (plan : m.plan i = .ok change)
      (next : after = m.started.advance.apply change) :
      Stepped mode m (after.settled i)
        (m.opening ++ .fetched m.pc i m.view ::
          (change.events ++ [.executed m.pc i after.view] ++ after.aftermath mode i))

/-- **A step that ends goes one of the six ways.** -/
theorem stepped_of_step {mode : TraceMode} {m m' : Machine} {events : List Event}
    (h : m.step mode = some (m', events)) : Stepped mode m m' events := by
  unfold step at h
  by_cases running : m.isRunning = true
  · have hstarted : { m with begun := true } = m.started := rfl
    rw [if_pos running, hstarted] at h
    unfold stepRunning at h
    rw [checkGap_started, fetch?_started] at h
    cases gap : m.checkGap with
    | error cause =>
      simp only [gap, Option.some.injEq, Prod.mk.injEq] at h
      obtain ⟨rfl, rfl⟩ := h
      exact .refused running gap rfl
    | ok =>
      cases fetched : m.fetch? with
      | none =>
        simp only [gap, fetched, Option.some.injEq, Prod.mk.injEq] at h
        obtain ⟨rfl, rfl⟩ := h
        exact .lost running gap fetched rfl
      | some i =>
        simp only [gap, fetched, execute_eq, plan_started_advance] at h
        cases plan : m.plan i with
        | error obstacle =>
          cases obstacle with
          | fault cause =>
            simp only [plan, Option.some.injEq, Prod.mk.injEq] at h
            obtain ⟨rfl, rfl⟩ := h
            exact .faulted running gap fetched plan rfl
          | overrun sp error =>
            simp only [plan, Option.some.injEq, Prod.mk.injEq] at h
            obtain ⟨rfl, rfl⟩ := h
            exact .overrun running gap fetched plan rfl
          | trap => simp [plan] at h
        | ok change =>
          have way : Stepped mode m _ _ := .executed running gap fetched plan rfl
          simp only [plan] at h
          by_cases halts : i.op = .halt
          · simp only [settled, aftermath, if_pos halts] at h way
            simp only [Option.some.injEq, Prod.mk.injEq] at h
            obtain ⟨rfl, rfl⟩ := h
            exact way
          · simp only [settled, aftermath, if_neg halts] at h way
            simp only [Option.some.injEq, Prod.mk.injEq] at h
            obtain ⟨rfl, rfl⟩ := h
            exact way
  · rw [if_neg running] at h
    simp only [Option.some.injEq, Prod.mk.injEq] at h
    obtain ⟨rfl, rfl⟩ := h
    exact .idle (Bool.eq_false_iff.mpr running)

/-- **Each of the six ways is a step.** -/
theorem step_of_stepped {mode : TraceMode} {m m' : Machine} {events : List Event}
    (h : Stepped mode m m' events) : m.step mode = some (m', events) := by
  have hstarted : { m with begun := true } = m.started := rfl
  cases h with
  | idle stopped => rw [step, if_neg (by simp [stopped])]
  | refused running gap next =>
    rw [step, if_pos running, hstarted, stepRunning, checkGap_started, gap, next]
    rfl
  | lost running gap fetched next =>
    rw [step, if_pos running, hstarted, stepRunning, checkGap_started, gap, fetch?_started, fetched,
      next]
    rfl
  | faulted running gap fetched refusal next =>
    simp only [step, if_pos running, hstarted, stepRunning, checkGap_started, gap, fetch?_started,
      fetched, execute_eq, plan_started_advance, refusal, next]
    rfl
  | overrun running gap fetched refusal next =>
    simp only [step, if_pos running, hstarted, stepRunning, checkGap_started, gap, fetch?_started,
      fetched, execute_eq, plan_started_advance, refusal, next]
    rfl
  | @executed i change after running gap fetched plan next =>
    simp only [step, if_pos running, hstarted, stepRunning, checkGap_started, gap, fetch?_started,
      fetched, execute_eq, plan_started_advance, plan, settled, aftermath, next]
    by_cases halts : i.op = .halt
    · simp only [if_pos halts]
      rfl
    · simp only [if_neg halts]
      rfl

/-! ### Issued instructions -/

/-- The step that comes next fetches `i` and carries it out, or tries to. -/
structure Machine.Issues (m : Machine) (i : Instruction) : Prop where
  running : m.isRunning = true
  gap : m.checkGap = .ok ()
  fetched : m.fetch? = some i

theorem mem_of_fetch? {m : Machine} {i : Instruction} (h : m.fetch? = some i) : i ∈ m.code :=
  Array.mem_of_getElem? (fetch?_eq_some h).2

/-- The state behind an issued instruction for which a change is decided on. -/
theorem Machine.Issues.next {mode : TraceMode} {m : Machine} {i : Instruction} {change : Change}
    (h : m.Issues i) (plan : m.plan i = .ok change) :
    (m.step mode).map (·.1) = some ((m.started.advance.apply change).settled i) := by
  rw [step_of_stepped (.executed h.running h.gap h.fetched plan rfl)]
  rfl

/-- **Only a trapped instruction leaves a step without a result.** -/
theorem step_eq_none_iff {mode : TraceMode} {m : Machine} :
    m.step mode = none ↔ ∃ i, m.Issues i ∧ m.plan i = .error .trap := by
  have alive : ∀ {m' : Machine} {events : List Event}, Stepped mode m m' events →
      m.step mode ≠ none := by
    intro m' events way
    rw [step_of_stepped way]
    simp
  constructor
  · intro h
    by_cases running : m.isRunning = true
    · cases gap : m.checkGap with
      | error cause => exact absurd h (alive (.refused running gap rfl))
      | ok =>
        cases fetched : m.fetch? with
        | none => exact absurd h (alive (.lost running gap fetched rfl))
        | some i =>
          refine ⟨i, ⟨running, gap, fetched⟩, ?_⟩
          cases plan : m.plan i with
          | error obstacle =>
            cases obstacle with
            | fault cause => exact absurd h (alive (.faulted running gap fetched plan rfl))
            | overrun sp error => exact absurd h (alive (.overrun running gap fetched plan rfl))
            | trap => rfl
          | ok change => exact absurd h (alive (.executed running gap fetched plan rfl))
    · exact absurd h (alive (.idle (Bool.eq_false_iff.mpr running)))
  · rintro ⟨i, ⟨running, gap, fetched⟩, plan⟩
    have hstarted : { m with begun := true } = m.started := rfl
    simp only [step, if_pos running, hstarted, stepRunning, checkGap_started, gap, fetch?_started,
      fetched, execute_eq, plan_started_advance, plan]

/-! ### Executed instructions -/

/-- One step of a run, with the states before and after it. -/
structure Transition where
  before : Machine
  events : List Event
  after : Machine

/-- The step has executed `i` without a fault. -/
def Transition.Executes (t : Transition) (i : Instruction) : Prop :=
  ∃ pc view, Event.executed pc i view ∈ t.events

namespace Stepped

variable {mode : TraceMode} {m m' : Machine} {events : List Event}

private theorem executed_notMem_opening {pc : Int64} {i : Instruction} {view : View} :
    Event.executed pc i view ∉ m.opening := by
  unfold opening
  split <;> simp

private theorem executed_notMem_closing {pc : Int64} {i : Instruction} {view : View} :
    Event.executed pc i view ∉ m.closing mode := by
  unfold closing
  split <;> simp

private theorem executed_notMem_aftermath {pc : Int64} {i j : Instruction} {view : View} :
    Event.executed pc i view ∉ m.aftermath mode j := by
  unfold aftermath progress
  split
  · exact executed_notMem_closing
  · split <;> simp

private theorem executed_notMem_change {change : Change} {pc : Int64} {i : Instruction}
    {view : View} : Event.executed pc i view ∉ change.events := by
  cases change <;> simp [Change.events]

/-- Nothing is executed in the ways that end at a fault, whether or not an instruction has been
fetched. -/
private theorem not_executes_fault {i : Instruction} :
    ¬ Transition.Executes ⟨m, m.opening ++ m'.closing mode, m'⟩ i ∧
      ∀ {pc : Int64} {j : Instruction} {view : View},
        ¬ Transition.Executes ⟨m, m.opening ++ .fetched pc j view :: m'.closing mode, m'⟩ i := by
  simp [Transition.Executes, executed_notMem_opening, executed_notMem_closing]

/-- An instruction is executed in the last of the six ways only, and it is the one fetched. -/
theorem of_executes (h : Stepped mode m m' events) {i : Instruction}
    (he : Transition.Executes ⟨m, events, m'⟩ i) :
    ∃ change, m.isRunning = true ∧ m.checkGap = .ok () ∧ m.fetch? = some i ∧
      m.plan i = .ok change ∧ m' = (m.started.advance.apply change).settled i := by
  cases h with
  | idle => simp [Transition.Executes] at he
  | refused => exact absurd he not_executes_fault.1
  | lost => exact absurd he not_executes_fault.1
  | faulted => exact absurd he not_executes_fault.2
  | overrun => exact absurd he not_executes_fault.2
  | @executed j change after running gap fetched plan next =>
    obtain ⟨pc, view, he⟩ := he
    simp only [List.mem_append, List.mem_cons, executed_notMem_opening, executed_notMem_change,
      executed_notMem_aftermath, reduceCtorEq, false_or, or_false, List.not_mem_nil,
      Event.executed.injEq] at he
    obtain ⟨-, rfl, -⟩ := he
    exact ⟨change, running, gap, fetched, plan, by rw [next]⟩

/-- An instruction that is fetched behind a passed check, and for which a change is decided on, is
executed. -/
theorem executes_of_plan (h : Stepped mode m m' events) {i : Instruction} {change : Change}
    (running : m.isRunning = true) (gap : m.checkGap = .ok ()) (fetched : m.fetch? = some i)
    (plan : m.plan i = .ok change) : Transition.Executes ⟨m, events, m'⟩ i := by
  have way : Stepped mode m _ _ := .executed running gap fetched plan rfl
  have hsame := (step_of_stepped h).symm.trans (step_of_stepped way)
  simp only [Option.some.injEq, Prod.mk.injEq] at hsame
  obtain ⟨-, rfl⟩ := hsame
  exact ⟨m.pc, (m.started.advance.apply change).view, by simp⟩

theorem executes_unique (h : Stepped mode m m' events) {i j : Instruction}
    (hi : Transition.Executes ⟨m, events, m'⟩ i) (hj : Transition.Executes ⟨m, events, m'⟩ j) :
    i = j := by
  obtain ⟨-, -, -, fetched, -⟩ := h.of_executes hi
  obtain ⟨-, -, -, fetched', -⟩ := h.of_executes hj
  exact Option.some.inj (fetched.symm.trans fetched')

/-- A step that executes nothing leaves the arena and the allocated addresses alone. -/
theorem frame_or_executes (h : Stepped mode m m' events) :
    (m'.arena = m.arena ∧ m'.live = m.live ∧ m'.heap = m.heap ∧
      ∀ i, ¬ Transition.Executes ⟨m, events, m'⟩ i) ∨
    ∃ i change, Transition.Executes ⟨m, events, m'⟩ i ∧ m.checkGap = .ok () ∧
      m.plan i = .ok change ∧ m' = (m.started.advance.apply change).settled i := by
  cases h with
  | idle => exact .inl ⟨rfl, rfl, rfl, by simp [Transition.Executes]⟩
  | refused _ _ next => exact .inl (next ▸ ⟨rfl, rfl, rfl, fun _ => not_executes_fault.1⟩)
  | lost _ _ _ next => exact .inl (next ▸ ⟨rfl, rfl, rfl, fun _ => not_executes_fault.1⟩)
  | faulted _ _ _ _ next => exact .inl (next ▸ ⟨rfl, rfl, rfl, fun _ => not_executes_fault.2⟩)
  | overrun _ _ _ _ next => exact .inl (next ▸ ⟨rfl, rfl, rfl, fun _ => not_executes_fault.2⟩)
  | @executed i change after running gap fetched plan next =>
    exact .inr ⟨i, change, ⟨m.pc, after.view, by simp⟩, gap, plan, by rw [next]⟩

/-- The program never changes. -/
theorem code_eq (h : Stepped mode m m' events) : m'.code = m.code := by
  cases h with
  | idle => rfl
  | refused running gap next => rw [next]; rfl
  | lost running gap fetched next => rw [next]; rfl
  | faulted running gap fetched refusal next => rw [next]; rfl
  | overrun running gap fetched refusal next => rw [next]; rfl
  | executed running gap fetched plan next => rw [settled_code, next, apply_code]; rfl

end Stepped

/-! ### Runs -/

/-- The runs of a machine, with the steps taken so far: each starts where the one before ended. -/
inductive Run (mode : TraceMode) (origin : Machine) : List Transition → Machine → Prop
  | start : Run mode origin [] origin
  | step {ts : List Transition} {m m' : Machine} {events : List Event}
      (earlier : Run mode origin ts m) (taken : m.step mode = some (m', events)) :
      Run mode origin (ts ++ [⟨m, events, m'⟩]) m'

/-- What holds at the start and is kept by every step holds after every run. -/
theorem Run.invariant {mode : TraceMode} {origin m : Machine} {ts : List Transition}
    {P : List Transition → Machine → Prop} (run : Run mode origin ts m) (start : P [] origin)
    (step : ∀ ts m m' events, Run mode origin ts m → P ts m → Stepped mode m m' events →
      P (ts ++ [⟨m, events, m'⟩]) m') : P ts m := by
  induction run with
  | start => exact start
  | step earlier taken ih => exact step _ _ _ _ earlier ih (stepped_of_step taken)

/-- Each step of a run starts where the steps before it lead. -/
theorem Run.split {mode : TraceMode} {origin m : Machine} {ts : List Transition}
    (run : Run mode origin ts m) : ∀ {earlier : List Transition} {t : Transition}
      {later : List Transition}, ts = earlier ++ t :: later →
        Run mode origin earlier t.before ∧ Stepped mode t.before t.after t.events := by
  refine run.invariant (P := fun ts _ => ∀ {earlier : List Transition} {t : Transition}
    {later : List Transition}, ts = earlier ++ t :: later →
      Run mode origin earlier t.before ∧ Stepped mode t.before t.after t.events) (by simp) ?_
  intro ts m m' events sofar ih h earlier t later hsplit
  rcases List.eq_nil_or_concat later with rfl | ⟨front, last, rfl⟩
  · obtain ⟨rfl, hlast⟩ := List.append_inj' hsplit rfl
    obtain rfl := List.singleton_inj.mp hlast
    exact ⟨sofar, h⟩
  · have hconcat : ts ++ [⟨m, events, m'⟩] = (earlier ++ t :: front) ++ [last] := by
      simpa using hsplit
    exact ih (List.append_inj' hconcat rfl).1

/-- A run that has ended at a fault has taken the step that faulted, and nothing changed after. -/
theorem Run.exists_faulting {mode : TraceMode} {origin m : Machine} {ts : List Transition}
    {f : Fault} (ready : origin.isRunning = true) (run : Run mode origin ts m)
    (hf : m.status = .faulted f) :
    ∃ earlier, ∃ t ∈ ts, Run mode origin earlier t.before ∧ t.before.isRunning = true ∧
      t.after = m ∧ Stepped mode t.before t.after t.events := by
  revert hf
  refine run.invariant (P := fun ts m => m.status = .faulted f → ∃ earlier, ∃ t ∈ ts,
    Run mode origin earlier t.before ∧ t.before.isRunning = true ∧ t.after = m ∧
      Stepped mode t.before t.after t.events) ?_ ?_
  · intro hf
    simp [isRunning, hf] at ready
  · intro ts m m' events earlier ih h hf
    by_cases running : m.isRunning = true
    · exact ⟨ts, _, List.mem_concat_self, earlier, running, rfl, h⟩
    · cases h with
      | idle =>
        obtain ⟨before, t, ht, hrest⟩ := ih hf
        exact ⟨before, t, List.mem_append_left _ ht, hrest⟩
      | _ => contradiction

/-- A run goes on with a step to a known state. -/
theorem Run.extend {mode : TraceMode} {origin m m' : Machine}
    (run : ∃ ts, Run mode origin ts m) (taken : (m.step mode).map (·.1) = some m') :
    ∃ ts, Run mode origin ts m' := by
  obtain ⟨ts, run⟩ := run
  obtain ⟨⟨_, events⟩, hstep, rfl⟩ := Option.map_eq_some_iff.mp taken
  exact ⟨_, run.step hstep⟩

/-- The machine after `n` steps; none if it is trapped on the way. -/
def Machine.after? (mode : TraceMode) (origin : Machine) : Nat → Option Machine
  | 0 => some origin
  | n + 1 => (origin.after? mode n).bind fun m => (m.step mode).map (·.1)

theorem Run.of_after? {mode : TraceMode} {origin m : Machine} {n : Nat}
    (h : origin.after? mode n = some m) : ∃ ts, Run mode origin ts m := by
  induction n generalizing m with
  | zero =>
    obtain rfl := Option.some.inj h
    exact ⟨[], .start⟩
  | succ n ih =>
    obtain ⟨before, hbefore, taken⟩ := Option.bind_eq_some_iff.mp h
    exact Run.extend (ih hbefore) taken

theorem Run.code_eq {mode : TraceMode} {origin m : Machine} {ts : List Transition}
    (run : Run mode origin ts m) : m.code = origin.code :=
  run.invariant (P := fun _ m => m.code = origin.code) rfl
    fun _ _ _ _ _ ih h => h.code_eq.trans ih

end RegisterMachine
