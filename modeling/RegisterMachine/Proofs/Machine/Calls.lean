import RegisterMachine.Machine.Session
import RegisterMachine.Proofs.Machine.Stepping

/-!
# Calls

A caller drives a session by single steps and by whole runs, in any order, also after the machine
has stopped. Either way the machine takes steps, and the hook calls that a session keeps are those
of its steps, one after the other. A session that keeps none is otherwise the same.
-/

set_option autoImplicit false

namespace RegisterMachine

open Machine

/-- What a caller can ask of a session. A run may go on forever; it is watched for at most `fuel`
steps. -/
inductive Call where
  | step
  | run (fuel : Nat)
  deriving DecidableEq, Repr, Inhabited

namespace Session

/-- The session after a call; nothing if the machine is trapped. -/
def call? (s : Session) : Call → Option Session
  | .step => s.step?
  | .run fuel =>
    match s.run fuel with
    | .finished s => some s
    | .outOfFuel s => some s
    | .trapped _ => none

/-- The session after a sequence of calls. -/
def serve? (s : Session) (calls : List Call) : Option Session :=
  calls.foldlM call? s

theorem serve?_cons {s next : Session} {call : Call} (h : s.call? call = some next)
    (rest : List Call) : s.serve? (call :: rest) = next.serve? rest := by
  rw [serve?, List.foldlM_cons, h]
  rfl

theorem call?_run_zero (s : Session) : s.call? (.run 0) = some s := by
  by_cases running : s.machine.isRunning = true
  · simp only [call?, run, if_pos running]
  · simp only [call?, run, if_neg running]

theorem call?_run_succ (s : Session) (fuel : Nat) :
    s.call? (.run (fuel + 1)) =
      if s.machine.isRunning then s.step?.bind (·.call? (.run fuel)) else some s := by
  by_cases running : s.machine.isRunning = true
  · simp only [call?, run, if_pos running]
    cases s.step? <;> rfl
  · simp only [call?, run, if_neg running]

end Session

/-! ### The steps behind a call -/

/-- The hook calls of a step. -/
def Transition.hooks (t : Transition) : List Event :=
  t.events.filter Event.isHook

theorem Run.trans {mode : TraceMode} {origin m m' : Machine} {ts us : List Transition}
    (first : Run mode origin ts m) (second : Run mode m us m') : Run mode origin (ts ++ us) m' := by
  induction second with
  | start => rwa [List.append_nil]
  | step _ taken ih =>
    rw [← List.append_assoc]
    exact ih.step taken

/-- `s'` is the session `s` after the steps `ts` of its machine. -/
structure Session.Reaches (s : Session) (ts : List Transition) (s' : Session) : Prop where
  run : Run s.mode s.machine ts s'.machine
  mode : s'.mode = s.mode
  keepsHooks : s'.keepsHooks = s.keepsHooks
  hooks : s.keepsHooks = true →
    s'.hooks.toList = s.hooks.toList ++ ts.flatMap Transition.hooks

namespace Session

theorem step?_eq (s : Session) :
    s.step? = (s.machine.step s.mode).map fun (machine, events) =>
      events.foldl observe { s with machine } := by
  obtain ⟨machine, mode, keepsOutput, keepsDumps, keepsHooks, output, dumps, hooks⟩ := s
  simp only [step?]
  cases machine.step mode <;> rfl

theorem step?_of_step {s : Session} {m : Machine} {events : List Event}
    (taken : s.machine.step s.mode = some (m, events)) :
    s.step? = some (events.foldl observe { s with machine := m }) := by
  rw [step?_eq, taken]
  rfl

/-- A session is changed by events only in what it has kept of them. -/
theorem observe_frame (s : Session) (e : Event) :
    (s.observe e).machine = s.machine ∧ (s.observe e).mode = s.mode ∧
      (s.observe e).keepsHooks = s.keepsHooks := by
  cases e <;> simp only [observe] <;> split <;> exact ⟨rfl, rfl, rfl⟩

theorem foldl_observe_frame (events : List Event) (s : Session) :
    (events.foldl observe s).machine = s.machine ∧ (events.foldl observe s).mode = s.mode ∧
      (events.foldl observe s).keepsHooks = s.keepsHooks := by
  induction events generalizing s with
  | nil => exact ⟨rfl, rfl, rfl⟩
  | cons e rest ih =>
    obtain ⟨machine, mode, keeps⟩ := ih (s.observe e)
    obtain ⟨machine', mode', keeps'⟩ := s.observe_frame e
    exact ⟨machine.trans machine', mode.trans mode', keeps.trans keeps'⟩

theorem hooks_observe {s : Session} (attached : s.keepsHooks = true) (e : Event) :
    (s.observe e).hooks.toList = s.hooks.toList ++ [e].filter Event.isHook := by
  cases e with
  | printed text =>
    simp only [observe]
    split <;> exact (List.append_nil _).symm
  | dumped text =>
    simp only [observe]
    split <;> exact (List.append_nil _).symm
  | _ =>
    simp only [observe, if_pos attached]
    exact Array.toList_push

/-- A session that keeps hook calls keeps all of them, in order. -/
theorem hooks_foldl_observe (events : List Event) {s : Session} (attached : s.keepsHooks = true) :
    (events.foldl observe s).hooks.toList = s.hooks.toList ++ events.filter Event.isHook := by
  induction events generalizing s with
  | nil => simp
  | cons e rest ih =>
    have hattached := (s.observe_frame e).2.2.trans attached
    rw [List.foldl_cons, ih hattached, hooks_observe attached, List.append_assoc,
      ← List.filter_append]
    rfl

/-! Calls of all kinds come down to steps, so what steps add up to is what calls add up to. -/

/-- What `R` says of the steps behind a session adds up, and every step has its share. -/
structure Accumulates (R : Session → List Transition → Session → Prop) : Prop where
  refl : ∀ s, R s [] s
  trans : ∀ {s s' s'' : Session} {ts us : List Transition},
    R s ts s' → R s' us s'' → R s (ts ++ us) s''
  step : ∀ {s s' : Session}, s.step? = some s' → ∃ t, R s [t] s'

namespace Accumulates

variable {R : Session → List Transition → Session → Prop} {s s' : Session}

theorem of_call? (acc : Accumulates R) {call : Call} (h : s.call? call = some s') :
    ∃ ts, R s ts s' := by
  cases call with
  | step =>
    obtain ⟨t, one⟩ := acc.step h
    exact ⟨[t], one⟩
  | run fuel =>
    induction fuel generalizing s with
    | zero =>
      rw [call?_run_zero] at h
      obtain rfl := Option.some.inj h
      exact ⟨[], acc.refl s⟩
    | succ fuel ih =>
      rw [call?_run_succ] at h
      split at h
      · obtain ⟨s₁, hstep, hrest⟩ := Option.bind_eq_some_iff.mp h
        obtain ⟨t, first⟩ := acc.step hstep
        obtain ⟨us, later⟩ := ih hrest
        exact ⟨[t] ++ us, acc.trans first later⟩
      · obtain rfl := Option.some.inj h
        exact ⟨[], acc.refl s⟩

theorem of_serve? (acc : Accumulates R) {calls : List Call} (h : s.serve? calls = some s') :
    ∃ ts, R s ts s' := by
  induction calls generalizing s with
  | nil =>
    obtain rfl := Option.some.inj h
    exact ⟨[], acc.refl s⟩
  | cons call rest ih =>
    rw [serve?, List.foldlM_cons] at h
    obtain ⟨s₁, hcall, hrest⟩ := Option.bind_eq_some_iff.mp h
    obtain ⟨ts, first⟩ := acc.of_call? hcall
    obtain ⟨us, later⟩ := ih hrest
    exact ⟨ts ++ us, acc.trans first later⟩

end Accumulates

namespace Reaches

variable {s s' s'' : Session} {ts us : List Transition}

theorem refl (s : Session) : s.Reaches [] s :=
  ⟨.start, rfl, rfl, fun _ => by simp⟩

theorem trans (first : s.Reaches ts s') (second : s'.Reaches us s'') :
    s.Reaches (ts ++ us) s'' := by
  refine ⟨first.run.trans ?_, second.mode.trans first.mode,
    second.keepsHooks.trans first.keepsHooks, fun attached => ?_⟩
  · rw [← first.mode]
    exact second.run
  · rw [second.hooks (first.keepsHooks.trans attached), first.hooks attached, List.append_assoc,
      List.flatMap_append]

theorem of_step? (h : s.step? = some s') : ∃ t, s.Reaches [t] s' := by
  rw [step?_eq] at h
  obtain ⟨⟨machine, events⟩, taken, rfl⟩ := Option.map_eq_some_iff.mp h
  obtain ⟨hmachine, hmode, hkeeps⟩ := foldl_observe_frame events { s with machine }
  refine ⟨⟨s.machine, events, machine⟩, ?_, hmode, hkeeps, fun attached => ?_⟩
  · rw [hmachine]
    exact .step .start taken
  · have hkept := hooks_foldl_observe events (s := { s with machine }) attached
    rw [List.flatMap_singleton]
    exact hkept

theorem accumulates : Accumulates Reaches :=
  ⟨refl, trans, of_step?⟩

/-- A run takes steps, whether it is seen to its end or not. -/
theorem of_run {fuel : Nat} (h : s.run fuel = .finished s' ∨ s.run fuel = .outOfFuel s') :
    ∃ ts, s.Reaches ts s' := by
  have hcall : s.call? (.run fuel) = some s' := by
    rcases h with h | h <;> simp only [call?, h]
  exact accumulates.of_call? hcall

/-- **Whatever a caller asks for, the machine takes steps.** -/
theorem of_serve? {calls : List Call} (h : s.serve? calls = some s') : ∃ ts, s.Reaches ts s' :=
  accumulates.of_serve? h

end Reaches

/-- The steps of a new session, and what a tracer that is attached to it is told of them. -/
theorem run_of_serve? {size : Int64} {code : Array Instruction} {s s' : Session}
    {calls : List Call} (loaded : s.machine = Machine.load size code)
    (attached : s.keepsHooks = true) (fresh : s.hooks = #[]) (served : s.serve? calls = some s') :
    ∃ ts, Run s.mode (Machine.load size code) ts s'.machine ∧
      s'.hooks.toList = ts.flatMap Transition.hooks := by
  obtain ⟨ts, reached⟩ := Reaches.of_serve? served
  refine ⟨ts, loaded ▸ reached.run, ?_⟩
  rw [reached.hooks attached, fresh]
  rfl

/-! ### Sessions without a tracer -/

/-- The session with no tracer attached. -/
def unwatched (s : Session) : Session :=
  { s with keepsHooks := false, hooks := #[] }

theorem observe_unwatched (s : Session) (e : Event) :
    (s.observe e).unwatched = s.unwatched.observe e := by
  cases e with
  | printed text => by_cases kept : s.keepsOutput = true <;> simp [observe, unwatched, kept]
  | dumped text => by_cases kept : s.keepsDumps = true <;> simp [observe, unwatched, kept]
  | _ => by_cases kept : s.keepsHooks = true <;> simp [observe, unwatched, kept]

theorem foldl_observe_unwatched (events : List Event) (s : Session) :
    (events.foldl observe s).unwatched = events.foldl observe s.unwatched := by
  induction events generalizing s with
  | nil => rfl
  | cons e rest ih => rw [List.foldl_cons, List.foldl_cons, ih, observe_unwatched]

theorem step?_unwatched (s : Session) : s.unwatched.step? = s.step?.map unwatched := by
  have hstep : s.unwatched.machine.step s.unwatched.mode = s.machine.step s.mode := rfl
  rw [step?_eq, step?_eq, hstep, Option.map_map]
  congr 1
  funext ⟨machine, events⟩
  exact (foldl_observe_unwatched events { s with machine }).symm

theorem call?_run_unwatched (fuel : Nat) (s : Session) :
    s.unwatched.call? (.run fuel) = (s.call? (.run fuel)).map unwatched := by
  induction fuel generalizing s with
  | zero => rw [call?_run_zero, call?_run_zero, Option.map_some]
  | succ fuel ih =>
    have hmachine : s.unwatched.machine = s.machine := rfl
    rw [call?_run_succ, call?_run_succ, hmachine, step?_unwatched]
    split
    · cases s.step? with
      | none => rfl
      | some s' => exact ih s'
    · rfl

/-- **A tracer is never noticed.** -/
theorem serve?_unwatched (calls : List Call) (s : Session) :
    s.unwatched.serve? calls = (s.serve? calls).map unwatched := by
  induction calls generalizing s with
  | nil => rfl
  | cons call rest ih =>
    have hcall : s.unwatched.call? call = (s.call? call).map unwatched := by
      cases call with
      | step => exact step?_unwatched s
      | run fuel => exact call?_run_unwatched fuel s
    simp only [serve?, List.foldlM_cons, hcall]
    cases s.call? call with
    | none => rfl
    | some s' => exact ih s'

end Session

end RegisterMachine
