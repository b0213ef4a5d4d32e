import RegisterMachine.Machine.Tracer
import RegisterMachine.Proofs.Machine.Calls

/-!
# The order of hook calls

A tracer is greeted once, told about every instruction before and after it executes, and taken
leave of once. `Hooked` gives the hook calls of one step, by what the step does to the machine.
`Told` is the language of hook calls as an automaton, and `Machine.phase` says at which of its
states the calls so far have arrived. The order holds for every caller, and for every tracer that
shares its calls with others.
-/

set_option autoImplicit false

namespace RegisterMachine

open Machine

namespace Event

def isBegan : Event → Bool
  | .began .. => true
  | _ => false

def isFetched : Event → Bool
  | .fetched .. => true
  | _ => false

def isExecuted : Event → Bool
  | .executed .. => true
  | _ => false

def isEnded : Event → Bool
  | .ended .. => true
  | _ => false

end Event

namespace Transition

/-- The step has executed an instruction without a fault. -/
def completes (t : Transition) : Bool :=
  t.before.isRunning && t.after.fault?.isNone

/-- The step has fetched an instruction, which has faulted. -/
def breaks (t : Transition) : Bool :=
  t.before.isRunning && t.after.fault?.isSome && t.after.steps == t.before.steps + 1

end Transition

/-! ### One step -/

/-- The ways of a step as a tracer sees them. -/
inductive Hooked (m : Machine) : Machine → List Event → Prop
  | idle (stopped : m.isRunning = false) : Hooked m m []
  /-- A fault before an instruction was fetched. -/
  | refused {m' : Machine} {f : Fault} (running : m.isRunning = true) (begun : m'.begun = true)
      (status : m'.status = .faulted f) (steps : m'.steps = m.steps) :
      Hooked m m' (m.opening ++ [.ended (some f) m'.view])
  /-- A fault of the instruction that was fetched. -/
  | broken {m' : Machine} {i : Instruction} {f : Fault} (running : m.isRunning = true)
      (fetched : m.fetch? = some i) (begun : m'.begun = true) (status : m'.status = .faulted f)
      (steps : m'.steps = m.steps + 1) :
      Hooked m m' (m.opening ++ [.fetched m.pc i m.view, .ended (some f) m'.view])
  | executed {m' : Machine} {i : Instruction} (running : m.isRunning = true)
      (fetched : m.fetch? = some i) (begun : m'.begun = true) (status : m'.status = .running)
      (steps : m'.steps = m.steps + 1) :
      Hooked m m' (m.opening ++ [.fetched m.pc i m.view, .executed m.pc i m'.view])
  /-- The machine counts as running until it has executed its last instruction. -/
  | halted {m' : Machine} {i : Instruction} (running : m.isRunning = true)
      (fetched : m.fetch? = some i) (begun : m'.begun = true) (status : m'.status = .halted)
      (steps : m'.steps = m.steps + 1) :
      Hooked m m' (m.opening ++ [.fetched m.pc i m.view,
        .executed m.pc i { m'.view with status := .running }, .ended none m'.view])

section Step

variable {mode : TraceMode} {m m' : Machine} {events : List Event}

theorem hooks_opening (m : Machine) : m.opening.filter Event.isHook = m.opening := by
  unfold opening
  split <;> rfl

theorem hooks_closing (mode : TraceMode) (m : Machine) :
    (m.closing mode).filter Event.isHook = [.ended m.fault? m.view] := by
  unfold closing
  split <;> rfl

theorem hooks_change (change : Change) : change.events.filter Event.isHook = [] := by
  cases change <;> rfl

theorem hooks_progress (mode : TraceMode) (i : Instruction) (m : Machine) :
    (progress mode i m).filter Event.isHook = [] := by
  unfold progress
  split <;> rfl

theorem status_of_isRunning (running : m.isRunning = true) : m.status = .running :=
  of_decide_eq_true running

/-- **The hook calls of a step.** -/
theorem Stepped.hooked (h : Stepped mode m m' events) :
    Hooked m m' (events.filter Event.isHook) := by
  cases h with
  | idle stopped => exact .idle stopped
  | refused running gap next =>
    rw [List.filter_append, hooks_opening, hooks_closing]
    subst next
    exact .refused running rfl rfl rfl
  | lost running gap fetched next =>
    rw [List.filter_append, hooks_opening, hooks_closing]
    subst next
    exact .refused running rfl rfl rfl
  | faulted running gap fetched refusal next =>
    rw [List.filter_append, hooks_opening, List.filter_cons_of_pos rfl, hooks_closing]
    subst next
    exact .broken running fetched rfl rfl rfl
  | overrun running gap fetched refusal next =>
    rw [List.filter_append, hooks_opening, List.filter_cons_of_pos rfl, hooks_closing]
    subst next
    exact .broken running fetched rfl rfl rfl
  | @executed i change after running gap fetched plan next =>
    have hbegun : after.begun = true := by rw [next, apply_begun]; rfl
    have hsteps : after.steps = m.steps + 1 := by rw [next, apply_steps]; rfl
    have hstatus : after.status = .running := by
      rw [next, apply_status]
      exact status_of_isRunning running
    rw [List.filter_append, hooks_opening, List.filter_cons_of_pos rfl, List.filter_append,
      List.filter_append, hooks_change]
    by_cases halts : i.op = .halt
    · have hview : after.view = { after.halt.view with status := .running } := by
        simp [view, halt, hstatus]
      simp only [settled, aftermath, if_pos halts, hooks_closing]
      rw [hview]
      exact .halted running fetched hbegun rfl hsteps
    · simp only [settled, aftermath, if_neg halts, hooks_progress]
      exact .executed running fetched hbegun hstatus hsteps

end Step

/-! ### The language of hook calls -/

/-- How far a tracer has been told of a run. -/
inductive Phase where
  /-- Nothing yet. -/
  | silent
  /-- All that has begun to execute has been seen to its end. -/
  | between
  /-- The instruction at `pc` is executing. -/
  | inside (pc : Int64) (i : Instruction)
  /-- The machine has halted, or stopped at `fault`. -/
  | closed (fault : Option Fault)

/-- The sequences of hook calls that lead to a phase: a greeting, then pairs of calls around
instructions of `code`, then a farewell. A fault may come between pairs or in the middle of one. -/
inductive Told (code : Array Instruction) : Phase → List Event → Prop
  | nothing : Told code .silent []
  | began {hooks : List Event} (size length : Nat) (view : View)
      (sofar : Told code .silent hooks) : Told code .between (hooks ++ [.began size length view])
  | fetched {hooks : List Event} {pc : Int64} {i : Instruction} (view : View)
      (sofar : Told code .between hooks) (stored : 0 ≤ pc ∧ code[pc.toNatClampNeg]? = some i) :
      Told code (.inside pc i) (hooks ++ [.fetched pc i view])
  | executed {hooks : List Event} {pc : Int64} {i : Instruction} (view : View)
      (sofar : Told code (.inside pc i) hooks) :
      Told code .between (hooks ++ [.executed pc i view])
  | ended {hooks : List Event} (fault : Option Fault) (view : View)
      (sofar : Told code .between hooks) : Told code (.closed fault) (hooks ++ [.ended fault view])
  | broken {hooks : List Event} {pc : Int64} {i : Instruction} (f : Fault) (view : View)
      (sofar : Told code (.inside pc i) hooks) :
      Told code (.closed (some f)) (hooks ++ [.ended (some f) view])

/-- What has been told so far is the beginning of what is told of a run that ends. -/
theorem Told.completes {code : Array Instruction} {phase : Phase} {hooks : List Event}
    (h : Told code phase hooks) :
    ∃ fault whole, Told code (.closed fault) whole ∧ hooks <+: whole := by
  have hend : ∀ {hooks : List Event}, Told code .between hooks →
      ∃ fault whole, Told code (.closed fault) whole ∧ hooks <+: whole := fun h =>
    ⟨none, _, h.ended none default, List.prefix_append _ _⟩
  cases phase with
  | silent =>
    obtain ⟨fault, whole, htold, hle⟩ := hend (h.began 0 0 default)
    exact ⟨fault, whole, htold, (List.prefix_append _ _).trans hle⟩
  | between => exact hend h
  | inside pc i =>
    obtain ⟨fault, whole, htold, hle⟩ := hend (h.executed default)
    exact ⟨fault, whole, htold, (List.prefix_append _ _).trans hle⟩
  | closed fault => exact ⟨fault, hooks, h, List.prefix_rfl⟩

/-- The phase that the hook calls of a machine have led to, between two of its steps. -/
def Machine.phase (m : Machine) : Phase :=
  match m.status with
  | .running => if m.begun then .between else .silent
  | .halted => .closed none
  | .faulted f => .closed (some f)

section Order

variable {m m' : Machine} {hooks calls : List Event}

theorem Told.opening (h : Told m.code m.phase hooks) (running : m.isRunning = true) :
    Told m.code .between (hooks ++ m.opening) := by
  rw [phase, status_of_isRunning running] at h
  unfold Machine.opening
  by_cases begun : m.begun = true
  · rw [if_pos begun]
    simpa only [if_pos begun, List.append_nil] using h
  · rw [if_neg begun]
    simp only [if_neg begun] at h
    exact h.began _ _ _

theorem Told.announced (h : Told m.code m.phase hooks) (running : m.isRunning = true)
    {i : Instruction} (fetched : m.fetch? = some i) :
    Told m.code (.inside m.pc i) (hooks ++ m.opening ++ [.fetched m.pc i m.view]) :=
  (h.opening running).fetched m.view (fetch?_eq_some fetched)

/-- **Each step goes on in the language.** -/
theorem Told.step (h : Told m.code m.phase hooks) (way : Hooked m m' calls) :
    Told m.code m'.phase (hooks ++ calls) := by
  cases way with
  | idle stopped => rwa [List.append_nil]
  | @refused _ f running begun status steps =>
    have hphase : m'.phase = .closed (some f) := by rw [phase, status]
    rw [hphase, ← List.append_assoc]
    exact (h.opening running).ended _ _
  | @broken _ i f running fetched begun status steps =>
    have hphase : m'.phase = .closed (some f) := by rw [phase, status]
    have htold := (h.announced running fetched).broken f m'.view
    rw [hphase]
    simpa using htold
  | @executed _ i running fetched begun status steps =>
    have hphase : m'.phase = .between := by simp only [phase, status, if_pos begun]
    have htold := (h.announced running fetched).executed m'.view
    rw [hphase]
    simpa using htold
  | @halted _ i running fetched begun status steps =>
    have hphase : m'.phase = .closed none := by rw [phase, status]
    have htold := (h.announced running fetched).executed { m'.view with status := .running }
    rw [hphase]
    simpa using htold.ended none m'.view

theorem told_run {mode : TraceMode} {size : Int64} {code : Array Instruction}
    {ts : List Transition} (run : Run mode (Machine.load size code) ts m) :
    Told code m.phase (ts.flatMap Transition.hooks) := by
  refine run.invariant (P := fun ts m => Told code m.phase (ts.flatMap Transition.hooks)) .nothing ?_
  intro ts m m' events sofar ih h
  have hcode : m.code = code := sofar.code_eq
  rw [List.flatMap_append, List.flatMap_singleton]
  rw [← hcode] at ih ⊢
  exact ih.step h.hooked

end Order

/-! ### Counting hook calls -/

/-- How often a step makes each of the hook calls, and how many instructions it fetches. -/
structure HookCounts (t : Transition) : Prop where
  steps : t.after.steps = t.before.steps + t.completes.toNat + t.breaks.toNat
  began : t.hooks.countP Event.isBegan = (t.before.isRunning && !t.before.begun).toNat
  fetched : t.hooks.countP Event.isFetched = t.completes.toNat + t.breaks.toNat
  executed : t.hooks.countP Event.isExecuted = t.completes.toNat
  ended : t.hooks.countP Event.isEnded = (t.before.isRunning && !t.after.isRunning).toNat

namespace HookCounts

variable {t : Transition} {calls rest : List Event}

/-- An opening holds nothing but a greeting. -/
theorem countP_opening (m : Machine) {p : Event → Bool}
    (hp : ∀ size length view, p (.began size length view) = false) : m.opening.countP p = 0 := by
  unfold opening
  split
  · rfl
  · rw [List.countP_singleton, hp]
    rfl

/-- What has to be counted behind the opening, once it is known whether the instruction completes
or breaks and whether the machine goes on. -/
theorem of_rest (completes breaks runs : Bool) (running : t.before.isRunning = true)
    (hooks : t.hooks = t.before.opening ++ rest)
    (flags : t.completes = completes ∧ t.breaks = breaks ∧ t.after.isRunning = runs)
    (steps : t.after.steps = t.before.steps + completes.toNat + breaks.toNat)
    (began : rest.countP Event.isBegan = 0)
    (fetched : rest.countP Event.isFetched = completes.toNat + breaks.toNat)
    (executed : rest.countP Event.isExecuted = completes.toNat)
    (ended : rest.countP Event.isEnded = (!runs).toNat) : HookCounts t := by
  obtain ⟨rfl, rfl, rfl⟩ := flags
  refine ⟨steps, ?_, ?_, ?_, ?_⟩
  · rw [hooks, List.countP_append, began, running]
    unfold opening
    cases t.before.begun <;> rfl
  · rw [hooks, List.countP_append, countP_opening _ fun _ _ _ => rfl, fetched, Nat.zero_add]
  · rw [hooks, List.countP_append, countP_opening _ fun _ _ _ => rfl, executed, Nat.zero_add]
  · rw [hooks, List.countP_append, countP_opening _ fun _ _ _ => rfl, ended, running, Nat.zero_add,
      Bool.true_and]

theorem of_hooked (hcalls : t.hooks = calls) (way : Hooked t.before t.after calls) :
    HookCounts t := by
  obtain ⟨m, events, m'⟩ := t
  simp only at way
  cases way with
  | idle stopped =>
    constructor <;> simp [hcalls, Transition.completes, Transition.breaks, stopped]
  | refused running begun status steps =>
    refine of_rest false false false running hcalls ?_ steps rfl rfl rfl rfl
    simp [Transition.completes, Transition.breaks, isRunning, fault?, Status.fault?, status, steps]
  | broken running fetched begun status steps =>
    refine of_rest false true false running hcalls ?_ steps rfl rfl rfl rfl
    have hrun : m.status = .running := status_of_isRunning running
    simp [Transition.completes, Transition.breaks, isRunning, fault?, Status.fault?, hrun, status,
      steps]
  | executed running fetched begun status steps =>
    refine of_rest true false true running hcalls ?_ steps rfl rfl rfl rfl
    have hrun : m.status = .running := status_of_isRunning running
    simp [Transition.completes, Transition.breaks, isRunning, fault?, Status.fault?, hrun, status]
  | halted running fetched begun status steps =>
    refine of_rest true false false running hcalls ?_ steps rfl rfl rfl rfl
    have hrun : m.status = .running := status_of_isRunning running
    simp [Transition.completes, Transition.breaks, isRunning, fault?, Status.fault?, hrun, status]

end HookCounts

theorem Stepped.hookCounts {mode : TraceMode} {t : Transition}
    (h : Stepped mode t.before t.after t.events) : HookCounts t :=
  .of_hooked rfl h.hooked

theorem countP_snoc (p : Transition → Bool) (ts : List Transition) (t : Transition) :
    (ts ++ [t]).countP p = ts.countP p + (p t).toNat := by
  rw [List.countP_append, List.countP_singleton]
  cases p t <;> rfl

/-- A machine that takes a step has begun. -/
theorem Hooked.begun_or_idle {m m' : Machine} {calls : List Event} (h : Hooked m m' calls) :
    m'.begun = true ∨ m.isRunning = false ∧ m' = m := by
  cases h with
  | idle stopped => exact .inr ⟨stopped, rfl⟩
  | refused running begun => exact .inl begun
  | broken running fetched begun => exact .inl begun
  | executed running fetched begun => exact .inl begun
  | halted running fetched begun => exact .inl begun

theorem Hooked.stays {m m' : Machine} {calls : List Event} (h : Hooked m m' calls)
    (stopped : m.isRunning = false) : m' = m ∧ calls = [] := by
  cases h with
  | idle => exact ⟨rfl, rfl⟩
  | _ => simp_all

section Run

variable {mode : TraceMode} {size : Int64} {code : Array Instruction} {ts : List Transition}
  {m : Machine}

/-- The first step, and no later one, finds a machine that has not begun. -/
theorem begun_run (run : Run mode (Machine.load size code) ts m) :
    ts = [] ∧ m.isRunning = true ∧ m.begun = false ∨ ts ≠ [] ∧ m.begun = true := by
  refine run.invariant (P := fun ts m => ts = [] ∧ m.isRunning = true ∧ m.begun = false ∨
    ts ≠ [] ∧ m.begun = true) (.inl ⟨rfl, rfl, rfl⟩) ?_
  intro ts m m' events _ ih h
  refine .inr ⟨by simp, ?_⟩
  rcases h.hooked.begun_or_idle with begun | ⟨stopped, rfl⟩
  · exact begun
  · rcases ih with ⟨-, running, -⟩ | ⟨-, begun⟩
    · rw [running] at stopped
      cases stopped
    · exact begun

/-- Every fetched instruction completes or breaks. -/
theorem steps_run (run : Run mode (Machine.load size code) ts m) :
    ts.countP Transition.completes + ts.countP Transition.breaks = m.steps := by
  refine run.invariant (P := fun ts m => ts.countP Transition.completes +
    ts.countP Transition.breaks = m.steps) rfl ?_
  intro ts m m' events _ ih h
  have hsteps := (Stepped.hookCounts (t := ⟨m, events, m'⟩) h).steps
  rw [countP_snoc, countP_snoc]
  change m'.steps = m.steps + _ + _ at hsteps
  omega

/-- At most one instruction breaks, and it is the last one. -/
theorem breaks_run (run : Run mode (Machine.load size code) ts m) :
    ts.countP Transition.breaks ≤ (!m.isRunning).toNat := by
  refine run.invariant (P := fun ts m => ts.countP Transition.breaks ≤ (!m.isRunning).toNat)
    (Nat.zero_le _) ?_
  intro ts m m' events _ ih h
  rw [countP_snoc]
  by_cases hbreaks : Transition.breaks ⟨m, events, m'⟩ = true
  · obtain ⟨⟨running, faulted⟩, -⟩ : (m.isRunning = true ∧ m'.fault?.isSome = true) ∧ _ := by
      simpa [Transition.breaks] using hbreaks
    have hstopped : m'.isRunning = false := by
      cases hs : m'.status <;> simp_all [isRunning, fault?, Status.fault?]
    rw [running] at ih
    rw [hbreaks, hstopped]
    exact Nat.succ_le_succ ih
  · rw [Bool.eq_false_iff.mpr hbreaks]
    cases running : m.isRunning with
    | true =>
      rw [running] at ih
      exact Nat.le_trans ih (Nat.zero_le _)
    | false =>
      rw [(h.hooked.stays running).1]
      exact ih

/-- How many instructions complete: all that were fetched, or all but the one that broke. -/
theorem completes_run (run : Run mode (Machine.load size code) ts m) :
    ((∀ t ∈ ts, t.breaks = false) → ts.countP Transition.completes = m.steps) ∧
      ((∃ t ∈ ts, t.breaks = true) → ts.countP Transition.completes + 1 = m.steps) := by
  have hsteps := steps_run run
  constructor
  · intro hnone
    have hzero : ts.countP Transition.breaks = 0 := by
      rw [List.countP_eq_zero]
      intro t ht
      simp [hnone t ht]
    omega
  · rintro ⟨t, ht, hbreaks⟩
    have hpos : 0 < ts.countP Transition.breaks := List.countP_pos_iff.mpr ⟨t, ht, hbreaks⟩
    have hone : ts.countP Transition.breaks ≤ 1 :=
      Nat.le_trans (breaks_run run) (Bool.toNat_le _)
    omega

theorem countP_hooks_run (run : Run mode (Machine.load size code) ts m) :
    (ts.flatMap Transition.hooks).countP Event.isFetched = m.steps ∧
      (ts.flatMap Transition.hooks).countP Event.isExecuted =
        ts.countP Transition.completes := by
  refine run.invariant (P := fun ts m =>
    (ts.flatMap Transition.hooks).countP Event.isFetched = m.steps ∧
      (ts.flatMap Transition.hooks).countP Event.isExecuted =
        ts.countP Transition.completes) ⟨rfl, rfl⟩ ?_
  rintro ts m m' events - ⟨hfetched, hexecuted⟩ h
  have counts := Stepped.hookCounts (t := ⟨m, events, m'⟩) h
  have hsteps := counts.steps
  rw [List.flatMap_append, List.flatMap_singleton, List.countP_append, List.countP_append,
    countP_snoc, counts.fetched, counts.executed, hfetched, hexecuted]
  refine ⟨?_, rfl⟩
  rw [← Nat.add_assoc]
  exact hsteps.symm

end Run

/-! ### Tracers side by side -/

/-- **Tracers that are attached as one are each told everything**, as if attached alone. -/
theorem Tracer.watch_multi {σ : Type} (tracers : List (Option (Tracer σ))) (calls : List Event) :
    ((Tracer.multi tracers).watch calls).state =
      (tracers.filterMap id).map fun t => t.watch calls := by
  have hfold : ∀ (calls : List Event) (ts : List (Tracer σ)),
      (calls.foldl Tracer.hook { state := ts, follow := (Tracer.multi tracers).follow }).state =
        ts.map fun t => calls.foldl Tracer.hook t := by
    intro calls
    induction calls with
    | nil => simp
    | cons e rest ih =>
      intro ts
      rw [List.foldl_cons]
      refine (ih (ts.map (·.hook e))).trans ?_
      rw [List.map_map]
      rfl
  exact hfold calls _

/-! ### Whole runs -/

/-- What the hook calls `hooks` tell of the steps `ts`, which have led to `m`. -/
structure HookProtocol (code : Array Instruction) (ts : List Transition) (m : Machine)
    (hooks : List Event) : Prop where
  /-- The calls have arrived at the phase of the machine. -/
  order : Told code m.phase hooks
  completes : ∃ fault whole, Told code (.closed fault) whole ∧ hooks <+: whole
  /-- Also in the middle of the next step, where a trapped machine is left. -/
  announced : ∀ i, m.isRunning = true → m.fetch? = some i →
    Told code (.inside m.pc i) (hooks ++ m.opening ++ [.fetched m.pc i m.view])
  /-- The first step greets the tracer, and no other does. -/
  greeting : ∀ {earlier : List Transition} {t : Transition} {later : List Transition},
    ts = earlier ++ t :: later →
      t.hooks.countP Event.isBegan = if earlier = [] then 1 else 0
  /-- The step that stops the machine takes leave of the tracer, and no other does. -/
  farewell : ∀ t ∈ ts, t.hooks.countP Event.isEnded =
    if t.before.isRunning = true ∧ t.after.isRunning = false then 1 else 0
  fetched : hooks.countP Event.isFetched = m.steps
  executed : (∀ t ∈ ts, t.breaks = false) → hooks.countP Event.isExecuted = m.steps
  /-- An instruction that has faulted is not told to have executed. -/
  broken : (∃ t ∈ ts, t.breaks = true) → hooks.countP Event.isExecuted + 1 = m.steps

theorem hookProtocol_run {mode : TraceMode} {size : Int64} {code : Array Instruction}
    {ts : List Transition} {m : Machine} (run : Run mode (Machine.load size code) ts m) :
    HookProtocol code ts m (ts.flatMap Transition.hooks) := by
  have told := told_run run
  have hcode : m.code = code := run.code_eq
  obtain ⟨hall, hbroken⟩ := completes_run run
  obtain ⟨hfetched, hexecuted⟩ := countP_hooks_run run
  refine ⟨told, told.completes, ?_, ?_, ?_, hfetched, ?_, ?_⟩
  · intro i running fetched
    rw [← hcode] at told ⊢
    exact told.announced running fetched
  · intro earlier t later hsplit
    obtain ⟨before, h⟩ := run.split hsplit
    rw [h.hookCounts.began]
    rcases begun_run before with ⟨hnil, running, begun⟩ | ⟨hsome, begun⟩
    · rw [if_pos hnil, running, begun]
      rfl
    · rw [if_neg hsome, begun, Bool.not_true, Bool.and_false]
      rfl
  · intro t ht
    obtain ⟨earlier, later, hsplit⟩ := List.append_of_mem ht
    obtain ⟨-, h⟩ := run.split hsplit
    rw [h.hookCounts.ended]
    cases t.before.isRunning <;> cases t.after.isRunning <;> rfl
  · exact fun hnone => hexecuted.trans (hall hnone)
  · intro hbreaks
    rw [hexecuted]
    exact hbroken hbreaks

/-- **The tracer protocol.** However a caller drives a new session to which a tracer is attached,
the tracer is told what the protocol says, and so is every tracer that is attached together with
others. -/
theorem tracer_protocol {size : Int64} {code : Array Instruction} {s s' : Session}
    {calls : List Call} (loaded : s.machine = Machine.load size code)
    (attached : s.keepsHooks = true) (fresh : s.hooks = #[]) (served : s.serve? calls = some s') :
    (∃ ts, Run s.mode (Machine.load size code) ts s'.machine ∧
      HookProtocol code ts s'.machine s'.hooks.toList) ∧
    ∀ {σ : Type} (tracers : List (Option (Tracer σ))),
      ((Tracer.multi tracers).watch s'.hooks.toList).state =
        (tracers.filterMap id).map fun t => t.watch s'.hooks.toList := by
  obtain ⟨ts, run, hhooks⟩ := Session.run_of_serve? loaded attached fresh served
  refine ⟨⟨ts, run, ?_⟩, fun tracers => Tracer.watch_multi tracers _⟩
  rw [hhooks]
  exact hookProtocol_run run

/-- Loads a number and prints a register that holds none. -/
def printAbsent : Array Instruction :=
  #[.ofArgs .li ["$t1", "5"] 0, .ofArgs .print ["$a0"] 0]

/-- A step, a run that ends at a fault, and a step of the machine that has stopped: two
instructions are announced, one of them is told to have executed. -/
theorem tracer_protocol_broken :
    ∃ s', Session.serve? { machine := Machine.load 4 printAbsent } [.step, .run 5, .step] = some s' ∧
      s'.machine.isRunning = false ∧ s'.hooks.size = 5 ∧
      (∃ ts, Run .off (Machine.load 4 printAbsent) ts s'.machine ∧
        HookProtocol printAbsent ts s'.machine s'.hooks.toList) ∧
      ∀ {σ : Type} (tracers : List (Option (Tracer σ))),
        ((Tracer.multi tracers).watch s'.hooks.toList).state =
          (tracers.filterMap id).map fun t => t.watch s'.hooks.toList := by
  have hserved : (Session.serve? { machine := Machine.load 4 printAbsent }
      [.step, .run 5, .step]).map (fun s => (s.machine.isRunning, s.hooks.size)) =
      some (false, 5) := by decide +kernel
  obtain ⟨s', served, hend⟩ := Option.map_eq_some_iff.mp hserved
  obtain ⟨stopped, hsize⟩ := Prod.mk.inj hend
  obtain ⟨protocol, shared⟩ := tracer_protocol rfl rfl rfl served
  exact ⟨s', served, stopped, hsize, protocol, shared⟩

end RegisterMachine
