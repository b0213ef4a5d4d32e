import RegisterMachine.Proofs.Machine.Calls

/-!
# Observation is inert

A machine can be watched in many ways: in each of the trace modes, with or without a tracer or a
journal to take its hook calls, and with or without anybody to read its dumps and what it prints.
The trace mode adds dumps to the events of a step and changes nothing else. Two sessions that
differ in their observers alone therefore take the same steps for the same calls, return the same to
their caller and, where both keep it, have printed the same.
-/

set_option autoImplicit false

namespace RegisterMachine

open Machine

/-! ### Texts of events -/

section Texts

variable (part : Event → String)

theorem foldl_append_part (events : List Event) (text : String) :
    events.foldl (fun text e => text ++ part e) text = text ++ textOf part events := by
  induction events generalizing text with
  | nil => exact String.append_empty.symm
  | cons e rest ih =>
    have hone : textOf part (e :: rest) = "" ++ part e ++ textOf part rest := ih ("" ++ part e)
    rw [List.foldl_cons, ih, hone, String.empty_append, String.append_assoc]

theorem textOf_cons (e : Event) (rest : List Event) :
    textOf part (e :: rest) = part e ++ textOf part rest := by
  have h := foldl_append_part part rest ("" ++ part e)
  rwa [String.empty_append] at h

theorem textOf_append (events rest : List Event) :
    textOf part (events ++ rest) = textOf part events ++ textOf part rest := by
  rw [textOf, List.foldl_append]
  exact foldl_append_part part rest _

theorem textOf_eq_empty {events : List Event} (silent : ∀ e ∈ events, part e = "") :
    textOf part events = "" := by
  induction events with
  | nil => rfl
  | cons e rest ih =>
    obtain ⟨he, hrest⟩ := List.forall_mem_cons.mp silent
    rw [textOf_cons, he, ih hrest]
    rfl

/-- Where nothing is printed, there is no printed text. -/
theorem textOf_of_notMem {events : List Event} (silent : ∀ text, .printed text ∉ events) :
    textOf Event.printedText events = "" := by
  refine textOf_eq_empty _ fun e he => ?_
  cases e with
  | printed text => exact absurd he (silent text)
  | _ => rfl

/-- Events without a text can be left out. -/
theorem textOf_filter {keep : Event → Bool} (silent : ∀ e, keep e = false → part e = "")
    (events : List Event) : textOf part (events.filter keep) = textOf part events := by
  induction events with
  | nil => rfl
  | cons e rest ih =>
    cases hkeep : keep e with
    | true => rw [List.filter_cons_of_pos hkeep, textOf_cons, textOf_cons, ih]
    | false =>
      rw [List.filter_cons_of_neg (by simp [hkeep]), textOf_cons, silent e hkeep,
        String.empty_append, ih]

end Texts

/-! ### The trace mode -/

/-- All events but the dumps. -/
def Event.isEssential : Event → Bool
  | .dumped _ => false
  | _ => true

/-- The events of a step without its dumps. -/
def essential (events : List Event) : List Event :=
  events.filter Event.isEssential

theorem essential_append (events rest : List Event) :
    essential (events ++ rest) = essential events ++ essential rest :=
  List.filter_append _ _

theorem essential_fetched (pc : Int64) (i : Instruction) (view : View) (rest : List Event) :
    essential (.fetched pc i view :: rest) = .fetched pc i view :: essential rest := rfl

section Mode

variable (mode mode' : TraceMode) (m : Machine)

theorem essential_closing : essential (m.closing mode) = [.ended m.fault? m.view] := by
  unfold closing
  split <;> rfl

theorem essential_aftermath (i : Instruction) :
    essential (m.aftermath mode i) = essential (m.aftermath mode' i) := by
  unfold aftermath
  split
  · rw [essential_closing, essential_closing]
  · have hprogress : ∀ mode, essential (progress mode i m) = [] := by
      intro mode
      unfold progress
      split <;> rfl
    rw [hprogress, hprogress]

end Mode

/-- **The trace mode adds dumps and changes nothing else.** -/
theorem Stepped.retrace {mode : TraceMode} {m m' : Machine} {events : List Event}
    (h : Stepped mode m m' events) (mode' : TraceMode) :
    ∃ events', Stepped mode' m m' events' ∧ essential events' = essential events := by
  cases h with
  | idle stopped => exact ⟨[], .idle stopped, rfl⟩
  | refused running gap next =>
    refine ⟨_, .refused running gap next, ?_⟩
    simp only [essential_append, essential_closing]
  | lost running gap fetched next =>
    refine ⟨_, .lost running gap fetched next, ?_⟩
    simp only [essential_append, essential_closing]
  | faulted running gap fetched refusal next =>
    refine ⟨_, .faulted running gap fetched refusal next, ?_⟩
    simp only [essential_append, essential_fetched, essential_closing]
  | overrun running gap fetched refusal next =>
    refine ⟨_, .overrun running gap fetched refusal next, ?_⟩
    simp only [essential_append, essential_fetched, essential_closing]
  | executed running gap fetched plan next =>
    refine ⟨_, .executed running gap fetched plan next, ?_⟩
    simp only [essential_append, essential_fetched]
    rw [essential_aftermath mode' mode]

/-- A machine is trapped in all modes or in none. -/
theorem step_eq_none_of_mode {mode mode' : TraceMode} {m : Machine} (h : m.step mode = none) :
    m.step mode' = none :=
  step_eq_none_iff.mpr (step_eq_none_iff.mp h)

/-! ### Sessions -/

theorem rel_bind {α β : Type} {r : α → β → Prop} {x : Option α} {y : Option β}
    {f : α → Option α} {g : β → Option β} (h : Option.Rel r x y)
    (hfg : ∀ a b, r a b → Option.Rel r (f a) (g b)) : Option.Rel r (x.bind f) (y.bind g) := by
  cases h with
  | none => exact .none
  | some hab => exact hfg _ _ hab

namespace Session

/-- What the calls return to their caller, one after the other: the fault that has stopped the
machine, if there is one. Nothing if the machine is trapped. -/
def replies? (s : Session) : List Call → Option (List (Option Fault))
  | [] => some []
  | call :: rest =>
    (s.call? call).bind fun s' => (s'.replies? rest).map (s'.machine.fault? :: ·)

/-- The sessions differ in their observers alone. Their machines are in the same state, and what
both of them keep is the same. -/
structure Alike (s u : Session) : Prop where
  machine : s.machine = u.machine
  output : s.keepsOutput = true → u.keepsOutput = true → s.output = u.output
  hooks : s.keepsHooks = true → u.keepsHooks = true → s.hooks = u.hooks

/-- What no event changes, a list of events does not change either. -/
theorem foldl_observe_fixed {α : Type} {view : Session → α}
    (fixed : ∀ (s : Session) (e : Event), view (s.observe e) = view s) (events : List Event)
    (s : Session) : view (events.foldl observe s) = view s := by
  induction events generalizing s with
  | nil => rfl
  | cons e rest ih => rw [List.foldl_cons, ih, fixed]

theorem foldl_observe_keepsOutput (events : List Event) (s : Session) :
    (events.foldl observe s).keepsOutput = s.keepsOutput := by
  refine foldl_observe_fixed (fun s e => ?_) events s
  cases e <;> simp only [observe] <;> split <;> rfl

/-- A text to which every event adds its part has the texts of all events added. -/
theorem foldl_observe_text {P : Session → Prop} {text : Session → String}
    {part : Event → String} (stays : ∀ {s : Session} (e : Event), P s → P (s.observe e))
    (adds : ∀ {s : Session} (e : Event), P s → text (s.observe e) = text s ++ part e)
    (events : List Event) {s : Session} (h : P s) :
    text (events.foldl observe s) = text s ++ textOf part events := by
  induction events generalizing s with
  | nil => exact String.append_empty.symm
  | cons e rest ih =>
    rw [List.foldl_cons, ih (stays e h), adds e h, textOf_cons, String.append_assoc]

/-- A session that keeps printed text keeps all of it. -/
theorem output_foldl_observe (events : List Event) {s : Session} (kept : s.keepsOutput = true) :
    (events.foldl observe s).output = s.output ++ textOf Event.printedText events := by
  refine foldl_observe_text (P := fun s => s.keepsOutput = true) ?_ ?_ events kept
  · intro s e kept
    exact (foldl_observe_keepsOutput [e] s).trans kept
  · intro s e kept
    cases e with
    | printed text => simp only [observe, if_pos kept, Event.printedText]
    | _ =>
      simp only [observe, Event.printedText, String.append_empty]
      split <;> rfl

namespace Alike

variable {s u : Session}

/-- Sessions stay alike when they are shown the same events, apart from dumps. -/
theorem shown (h : s.Alike u) (machine : Machine) {events events' : List Event}
    (same : essential events = essential events') :
    (events.foldl observe { s with machine }).Alike (events'.foldl observe { u with machine }) := by
  obtain ⟨hmachine, -, hkeeps⟩ := foldl_observe_frame events { s with machine }
  obtain ⟨hmachine', -, hkeeps'⟩ := foldl_observe_frame events' { u with machine }
  refine ⟨hmachine.trans hmachine'.symm, fun kept kept' => ?_, fun kept kept' => ?_⟩
  · rw [foldl_observe_keepsOutput] at kept kept'
    have htext : textOf Event.printedText events = textOf Event.printedText events' := by
      have silent : ∀ e, Event.isEssential e = false → Event.printedText e = "" := by
        intro e he
        cases e with
        | dumped text => rfl
        | _ => cases he
      rw [← textOf_filter _ silent events, ← textOf_filter _ silent events']
      exact congrArg _ same
    rw [output_foldl_observe _ kept, output_foldl_observe _ kept', htext]
    exact congrArg (· ++ _) (h.output kept kept')
  · rw [hkeeps] at kept
    rw [hkeeps'] at kept'
    have hcalls : events.filter Event.isHook = events'.filter Event.isHook := by
      have honly : ∀ events : List Event,
          (essential events).filter Event.isHook = events.filter Event.isHook := by
        intro events
        rw [essential, List.filter_filter]
        congr 1
        funext e
        cases e <;> rfl
      rw [← honly events, ← honly events', same]
    have hsame : s.hooks.toList = u.hooks.toList := by rw [h.hooks kept kept']
    apply Array.toList_inj.mp
    rw [hooks_foldl_observe _ kept, hooks_foldl_observe _ kept', hcalls]
    exact congrArg (· ++ _) hsame

theorem step? (h : s.Alike u) : Option.Rel Alike s.step? u.step? := by
  rw [step?_eq, step?_eq]
  cases hstep : s.machine.step s.mode with
  | none =>
    rw [h.machine] at hstep
    rw [step_eq_none_of_mode hstep]
    exact .none
  | some result =>
    obtain ⟨machine, events⟩ := result
    obtain ⟨events', way, same⟩ := (stepped_of_step hstep).retrace u.mode
    rw [h.machine] at way
    rw [step_of_stepped way]
    exact .some (h.shown machine same.symm)

theorem call? (h : s.Alike u) (call : Call) : Option.Rel Alike (s.call? call) (u.call? call) := by
  cases call with
  | step => exact h.step?
  | run fuel =>
    induction fuel generalizing s u with
    | zero =>
      rw [call?_run_zero, call?_run_zero]
      exact .some h
    | succ fuel ih =>
      rw [call?_run_succ, call?_run_succ, h.machine]
      split
      · exact rel_bind h.step? fun _ _ h' => ih h'
      · exact .some h

theorem serve? (h : s.Alike u) (calls : List Call) :
    Option.Rel Alike (s.serve? calls) (u.serve? calls) := by
  induction calls generalizing s u with
  | nil => exact .some h
  | cons call rest ih =>
    simp only [Session.serve?, List.foldlM_cons]
    exact rel_bind (h.call? call) fun _ _ h' => ih h'

theorem replies?_eq (h : s.Alike u) (calls : List Call) : s.replies? calls = u.replies? calls := by
  induction calls generalizing s u with
  | nil => rfl
  | cons call rest ih =>
    have hcall := h.call? call
    unfold replies?
    generalize s.call? call = x at hcall ⊢
    generalize u.call? call = y at hcall ⊢
    cases hcall with
    | none => rfl
    | some h' => rw [Option.bind_some, Option.bind_some, ih h', h'.machine]

end Alike

end Session

/-- **Observation does not influence execution.** Whatever sequence of steps and runs a caller asks
for, sessions that differ in trace mode, in what they keep and in who is told of it end in machines
of the same state or are both trapped; every call returns the same, and where both keep printed
text, the same has been printed. -/
theorem observation_inert {s u : Session} (alike : s.Alike u) (calls : List Call) :
    Option.Rel Session.Alike (s.serve? calls) (u.serve? calls) ∧
      s.replies? calls = u.replies? calls :=
  ⟨alike.serve? calls, alike.replies?_eq calls⟩

/-- Prints a number, then a register that holds none. -/
def printThenFault : Array Instruction :=
  #[.ofArgs .li ["$t1", "7"] 0, .ofArgs .print ["$t1"] 0, .ofArgs .print ["$a0"] 0]

/-- Every observer, in the verbose mode. -/
def watched : Session :=
  { machine := Machine.load 4 printThenFault, mode := .verbose }

/-- Only the printed text is kept. -/
def listened : Session :=
  { machine := Machine.load 4 printThenFault, keepsDumps := false, keepsHooks := false }

/-- A step, a run that ends at a fault, and a step of the machine that has stopped. -/
def stepRunStep : List Call :=
  [.step, .run 5, .step]

/-- Dumps and hook calls are kept on one side only, what has been printed on both. -/
theorem observation_inert_verbose :
    watched.Alike listened ∧ ∃ s u, watched.serve? stepRunStep = some s ∧
      listened.serve? stepRunStep = some u ∧
      (s.output, s.dumps.isEmpty, s.hooks.size) = ("7\n", false, 7) ∧
      (u.output, u.dumps.isEmpty, u.hooks.size) = ("7\n", true, 0) ∧
      s.Alike u ∧ watched.replies? stepRunStep = listened.replies? stepRunStep := by
  have alike : watched.Alike listened := ⟨rfl, fun _ _ => rfl, fun _ _ => rfl⟩
  obtain ⟨served, returned⟩ := observation_inert alike stepRunStep
  have hs : (watched.serve? stepRunStep).map
      (fun s => (s.output, s.dumps.isEmpty, s.hooks.size)) = some ("7\n", false, 7) := by
    decide +kernel
  have hu : (listened.serve? stepRunStep).map
      (fun u => (u.output, u.dumps.isEmpty, u.hooks.size)) = some ("7\n", true, 0) := by
    decide +kernel
  obtain ⟨s, hserved, hkept⟩ := Option.map_eq_some_iff.mp hs
  obtain ⟨u, hserved', hkept'⟩ := Option.map_eq_some_iff.mp hu
  rw [hserved, hserved'] at served
  cases served with
  | some alike' => exact ⟨alike, s, u, hserved, hserved', hkept, hkept', alike', returned⟩

end RegisterMachine
