import RegisterMachine.Proofs.Machine.Observation

/-!
# Runs that are resumed

A run can be cut anywhere: a caller who takes some steps one by one and runs the rest sees what a
caller sees who runs the machine at once. This needs two facts about a run that ends. A step does
not change where it ends, and fuel beyond what it needs makes no difference. A machine that has
stopped stays as it is for every call; if it has halted, then at the instruction behind which its
program counter stands.
-/

set_option autoImplicit false

namespace RegisterMachine

open Machine

/-! ### Stopped machines -/

namespace Session

variable {s s' : Session} {fuel : Nat}

section Stopped

variable (stopped : s.machine.isRunning = false)
include stopped

theorem step?_stopped : s.step? = some s :=
  step?_of_step (step_of_stepped (.idle stopped))

theorem run_stopped (fuel : Nat) : s.run fuel = .finished s := by
  cases fuel <;> simp [run, stopped]

theorem call?_stopped (call : Call) : s.call? call = some s := by
  cases call with
  | step => exact step?_stopped stopped
  | run fuel => simp only [call?, run_stopped stopped fuel]

/-- No call changes a machine that has stopped. -/
theorem serve?_stopped (calls : List Call) : s.serve? calls = some s := by
  induction calls with
  | nil => rfl
  | cons call rest ih =>
    rw [serve?_cons (call?_stopped stopped call), ih]

/-- Every call returns how the machine has stopped. -/
theorem replies?_stopped (calls : List Call) :
    s.replies? calls = some (calls.map fun _ => s.machine.fault?) := by
  induction calls with
  | nil => rfl
  | cons call rest ih =>
    rw [replies?, call?_stopped stopped call, Option.bind_some, ih]
    rfl

end Stopped

/-! ### Runs cut in two -/

theorem run_succ (running : s.machine.isRunning = true) {next : Session}
    (taken : s.step? = some next) : s.run (fuel + 1) = next.run fuel := by
  simp only [run, if_pos running, taken]

/-- A run that ends has taken the first step, if the machine was running at all. -/
theorem run_eq_finished (h : s.run fuel = .finished s') :
    s.machine.isRunning = false ∧ s' = s ∨
      ∃ rest next, fuel = rest + 1 ∧ s.machine.isRunning = true ∧ s.step? = some next ∧
        next.run rest = .finished s' := by
  by_cases running : s.machine.isRunning = true
  · cases fuel with
    | zero => simp [run, running] at h
    | succ rest =>
      cases taken : s.step? with
      | none => simp [run, running, taken] at h
      | some next =>
        rw [run_succ running taken] at h
        exact .inr ⟨rest, next, rfl, running, rfl, h⟩
  · have stopped := Bool.eq_false_iff.mpr running
    rw [run_stopped stopped] at h
    exact .inl ⟨stopped, (RunResult.finished.inj h).symm⟩

theorem stopped_of_run (h : s.run fuel = .finished s') : s'.machine.isRunning = false := by
  induction fuel generalizing s with
  | zero =>
    rcases run_eq_finished h with ⟨stopped, rfl⟩ | ⟨_, _, hfuel, -⟩
    · exact stopped
    · cases hfuel
  | succ fuel ih =>
    rcases run_eq_finished h with ⟨stopped, rfl⟩ | ⟨_, next, hfuel, -, -, rest⟩
    · exact stopped
    · cases hfuel
      exact ih rest

/-- Fuel that a run does not need makes no difference. -/
theorem run_mono (h : s.run fuel = .finished s') {more : Nat} (hle : fuel ≤ more) :
    s.run more = .finished s' := by
  induction fuel generalizing s more with
  | zero =>
    rcases run_eq_finished h with ⟨stopped, rfl⟩ | ⟨_, _, hfuel, -⟩
    · exact run_stopped stopped more
    · cases hfuel
  | succ fuel ih =>
    rcases run_eq_finished h with ⟨stopped, rfl⟩ | ⟨_, next, hfuel, running, taken, rest⟩
    · exact run_stopped stopped more
    · cases hfuel
      obtain ⟨more, rfl⟩ : ∃ k, more = k + 1 := ⟨more - 1, by omega⟩
      rw [run_succ running taken]
      exact ih rest (by omega)

/-- **A step does not change where a run ends.** -/
theorem run_after_step (h : s.run fuel = .finished s') :
    ∃ next, s.step? = some next ∧ next.run fuel = .finished s' := by
  rcases run_eq_finished h with ⟨stopped, rfl⟩ | ⟨rest, next, rfl, -, taken, h⟩
  · exact ⟨s', step?_stopped stopped, run_stopped stopped fuel⟩
  · exact ⟨next, taken, run_mono h (Nat.le_succ rest)⟩

theorem replies?_run (h : s.run fuel = .finished s') :
    s.replies? [.run fuel] = some [s'.machine.fault?] := by
  simp only [replies?, call?, h, Option.bind_some, Option.map_some]

/-- **Nor do any number of steps**, and the run that follows them returns what it would have
returned without them. -/
theorem run_after_steps (h : s.run fuel = .finished s') (n : Nat) :
    ∃ next replies, s.serve? (List.replicate n .step) = some next ∧
      next.run fuel = .finished s' ∧ replies.length = n ∧
      s.replies? (List.replicate n .step ++ [.run fuel]) =
        some (replies ++ [s'.machine.fault?]) := by
  induction n generalizing s with
  | zero => exact ⟨s, [], rfl, h, rfl, replies?_run h⟩
  | succ n ih =>
    obtain ⟨first, taken, h⟩ := run_after_step h
    obtain ⟨next, replies, served, finished, hlength, returned⟩ := ih h
    have hcall : s.call? .step = some first := taken
    refine ⟨next, first.machine.fault? :: replies, ?_, finished, congrArg (· + 1) hlength, ?_⟩
    · rw [List.replicate_succ, serve?_cons hcall, served]
    · rw [List.replicate_succ, List.cons_append, replies?, hcall, Option.bind_some, returned]
      rfl

end Session

/-! ### The last instruction -/

/-- The last instruction that these steps have executed is `i`, fetched from `pc`. -/
def LastExecuted (ts : List Transition) (pc : Int64) (i : Instruction) : Prop :=
  ∃ earlier t later, ts = earlier ++ t :: later ∧ t.before.pc = pc ∧ t.Executes i ∧
    ∀ u ∈ later, ∀ j, ¬ u.Executes j

/-- **A machine that has halted stands behind a `halt`**, which it has executed last. -/
theorem lastExecuted_of_halted {mode : TraceMode} {size : Int64} {code : Array Instruction}
    {ts : List Transition} {m : Machine} (run : Run mode (Machine.load size code) ts m)
    (halted : m.status = .halted) :
    ∃ i, i.op = .halt ∧ 0 ≤ m.pc - 1 ∧ m.code[(m.pc - 1).toNatClampNeg]? = some i ∧
      LastExecuted ts (m.pc - 1) i := by
  revert halted
  refine run.invariant (P := fun ts m => m.status = .halted → ∃ i, i.op = .halt ∧ 0 ≤ m.pc - 1 ∧
    m.code[(m.pc - 1).toNatClampNeg]? = some i ∧ LastExecuted ts (m.pc - 1) i) nofun ?_
  intro ts m m' events earlier ih h halted
  cases h with
  | idle stopped =>
    -- A step that follows the halt executes nothing.
    obtain ⟨i, op, hpos, hcode, before, t, later, rfl, hpc, executes, silent⟩ := ih halted
    refine ⟨i, op, hpos, hcode, before, t, later ++ [⟨m, [], m⟩], by simp, hpc, executes, ?_⟩
    intro u hu j
    rcases List.mem_append.mp hu with hu | hu
    · exact silent u hu j
    · rw [List.mem_singleton.mp hu]
      simp [Transition.Executes]
  | refused _ _ next => rw [next] at halted; cases halted
  | lost _ _ _ next => rw [next] at halted; cases halted
  | faulted _ _ _ _ next => rw [next] at halted; cases halted
  | overrun _ _ _ _ next => rw [next] at halted; cases halted
  | @executed i change after running gap fetched plan next =>
    have op : i.op = .halt := by
      by_contra other
      rw [settled, if_neg other, next, apply_status] at halted
      have hrunning : m.status = .running := of_decide_eq_true running
      exact absurd (hrunning.symm.trans halted) (by decide)
    obtain rfl : change = .nothing := by
      simp only [Machine.plan, op] at plan
      exact (Except.ok.inj plan).symm
    have hpc : (after.settled i).pc - 1 = m.pc := by
      rw [settled_pc, next]
      exact Int64.add_sub_cancel m.pc 1
    have hcode : (after.settled i).code = m.code := by
      rw [settled_code, next]
      rfl
    have way : Stepped mode m (after.settled i) _ := .executed running gap fetched plan next
    obtain ⟨hpos, hget⟩ := fetch?_eq_some fetched
    rw [hpc, hcode]
    exact ⟨i, op, hpos, hget, ts, _, [], rfl, rfl, way.executes_of_plan running gap fetched plan,
      List.forall_mem_nil _⟩

/-! ### Steps and runs -/

theorem isSome_fault?_iff (m : Machine) : m.fault?.isSome = true ↔ m.status.name = "faulted" := by
  unfold fault?
  cases m.status with
  | running => decide
  | halted => decide
  | faulted f => exact iff_of_true rfl rfl

/-- **Stepping and running agree.** If the run of a machine ends, whatever calls have been made
before, then any number of steps may be taken first: the run that follows ends in the same session,
with the same state, printed text, dumps and hook calls, and it returns the same. A machine has a
fault exactly if it is faulted. One that has halted has executed the `halt` in front of its program
counter last. Further calls change nothing and return the same. -/
theorem steps_then_run {size : Int64} {code : Array Instruction} {origin s s' : Session}
    {calls : List Call} {fuel : Nat} (loaded : origin.machine = Machine.load size code)
    (served : origin.serve? calls = some s) (finished : s.run fuel = .finished s') :
    (∀ n, ∃ next replies, s.serve? (List.replicate n .step) = some next ∧
      (∀ more, fuel ≤ more → next.run more = .finished s') ∧ replies.length = n ∧
      s.replies? (List.replicate n .step ++ [.run fuel]) =
        some (replies ++ [s'.machine.fault?])) ∧
    (∀ m : Machine, m.fault?.isSome = true ↔ m.status.name = "faulted") ∧
    (s'.machine.status = .halted → ∃ ts i, origin.Reaches ts s' ∧ i.op = .halt ∧
      0 ≤ s'.machine.pc - 1 ∧ code[(s'.machine.pc - 1).toNatClampNeg]? = some i ∧
      LastExecuted ts (s'.machine.pc - 1) i) ∧
    ∀ further, s'.serve? further = some s' ∧
      s'.replies? further = some (further.map fun _ => s'.machine.fault?) := by
  refine ⟨fun n => ?_, isSome_fault?_iff, fun halted => ?_, fun further => ?_⟩
  · obtain ⟨next, replies, hserved, hrun, hlength, returned⟩ := Session.run_after_steps finished n
    exact ⟨next, replies, hserved, fun more hle => Session.run_mono hrun hle, hlength, returned⟩
  · obtain ⟨ts, first⟩ := Session.Reaches.of_serve? served
    obtain ⟨us, second⟩ := Session.Reaches.of_run (.inl finished)
    have reached := first.trans second
    have run : Run origin.mode (Machine.load size code) (ts ++ us) s'.machine :=
      loaded ▸ reached.run
    obtain ⟨i, op, hpos, hget, last⟩ := lastExecuted_of_halted run halted
    rw [run.code_eq] at hget
    exact ⟨_, i, reached, op, hpos, hget, last⟩
  · have stopped := Session.stopped_of_run finished
    exact ⟨Session.serve?_stopped stopped further, Session.replies?_stopped stopped further⟩

/-- The result of a run that ends. -/
def RunResult.finished? {α : Type} : RunResult α → Option α
  | .finished a => some a
  | _ => none

theorem RunResult.finished?_eq_some {α : Type} {r : RunResult α} {a : α} :
    r.finished? = some a ↔ r = .finished a := by
  cases r <;> simp [finished?]

/-- Prints a number and halts; everything is watched. -/
def printThenHalt : Session where
  machine := Machine.load 4
    #[.ofArgs .li ["$t1", "7"] 0, .ofArgs .print ["$t1"] 0, .ofArgs .halt [] 0]
  mode := .verbose

/-- A step, then the rest at once, or any number of steps more before it. -/
theorem steps_then_run_halted :
    ∃ s s', printThenHalt.serve? [.step] = some s ∧ s.run 5 = .finished s' ∧
      s'.machine.status = .halted ∧ s'.output = "7\n" ∧
      (∀ n, ∃ next, s.serve? (List.replicate n .step) = some next ∧
        next.run 5 = .finished s') ∧
      (∃ ts i, printThenHalt.Reaches ts s' ∧ i.op = .halt ∧
        LastExecuted ts (s'.machine.pc - 1) i) ∧
      s'.serve? [.run 3, .step] = some s' ∧ s'.replies? [.run 3, .step] = some [none, none] := by
  have hrun : ((printThenHalt.serve? [.step]).bind fun s => (s.run 5).finished?.map
      fun s' => (s'.machine.status, s'.output)) = some (.halted, "7\n") := by decide +kernel
  obtain ⟨s, served, hrun⟩ := Option.bind_eq_some_iff.mp hrun
  obtain ⟨s', finished, hend⟩ := Option.map_eq_some_iff.mp hrun
  obtain ⟨status, output⟩ := Prod.mk.inj hend
  have finished := RunResult.finished?_eq_some.mp finished
  obtain ⟨split, -, last, still⟩ := steps_then_run rfl served finished
  refine ⟨s, s', served, finished, status, output, fun n => ?_, ?_, (still _).1, ?_⟩
  · obtain ⟨next, -, hserved, hnext, -⟩ := split n
    exact ⟨next, hserved, hnext 5 (Nat.le_refl 5)⟩
  · obtain ⟨ts, i, reached, op, -, -, hlast⟩ := last status
    exact ⟨ts, i, reached, op, hlast⟩
  · have hfault : s'.machine.fault? = none := by rw [fault?, status]; rfl
    rw [(still _).2, hfault]
    rfl

end RegisterMachine
