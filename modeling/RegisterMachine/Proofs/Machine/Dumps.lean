import RegisterMachine.Proofs.Machine.Hooks
import RegisterMachine.Proofs.Machine.Observation

/-!
# The text of a traced run

Dumps are written behind instructions, at a halt and at a fault, and which of them are written
depends on the trace mode. `transcript` says what they add up to once the machine has stopped: the
reports of the instructions that went through, then the last state. A step is accounted for by what
it reports and by whether it is the one that stops the machine.
-/

set_option autoImplicit false

namespace RegisterMachine

open Machine

/-- The report of an instruction that was executed without a fault, other than `halt`. -/
def Transition.report (t : Transition) : String :=
  match t.before.fetch? with
  | none => ""
  | some i =>
    if t.completes = true ∧ i.op ≠ .halt then
      "\nInstruction: " ++ i.text ++ "\n" ++ t.after.dump
    else ""

/-- What the trace mode shows of a machine that has stopped at `m` after the steps `ts`. -/
def transcript (mode : TraceMode) (ts : List Transition) (m : Machine) : String :=
  match mode with
  | .off => ""
  | .summary => m.dump
  | .verbose => String.join (ts.map Transition.report) ++ m.dump

/-- The reports that the trace mode asks for. -/
def reports (mode : TraceMode) (ts : List Transition) : String :=
  if mode = .verbose then String.join (ts.map Transition.report) else ""

/-- The dump of a machine that has stopped, in the modes that have one. -/
def Machine.lastDump (mode : TraceMode) (m : Machine) : String :=
  if mode = .off ∨ m.isRunning = true then "" else m.dump

theorem transcript_eq {mode : TraceMode} {m : Machine} (stopped : m.isRunning = false)
    (ts : List Transition) : transcript mode ts m = reports mode ts ++ m.lastDump mode := by
  cases mode <;> simp [transcript, reports, lastDump, stopped]

theorem reports_append (mode : TraceMode) (ts us : List Transition) :
    reports mode (ts ++ us) = reports mode ts ++ reports mode us := by
  unfold reports
  split
  · simp
  · rfl

theorem reports_silent {t : Transition} (silent : t.report = "") (mode : TraceMode) :
    reports mode [t] = "" := by
  unfold reports
  split
  · simp [silent]
  · rfl

theorem report_of_not_completes {t : Transition} (h : t.completes = false) : t.report = "" := by
  unfold Transition.report
  split
  · rfl
  · rw [if_neg]
    simp [h]

/-! ### Steps -/

section Step

variable {mode : TraceMode} {m m' : Machine} {events : List Event}

theorem lastDump_of_running (running : m.isRunning = true) : m.lastDump mode = "" :=
  if_pos (.inr running)

theorem dumpedText_opening (m : Machine) : textOf Event.dumpedText m.opening = "" := by
  unfold opening
  split <;> rfl

theorem dumpedText_change (change : Change) : textOf Event.dumpedText change.events = "" := by
  cases change <;> rfl

theorem dumpedText_closing (stopped : m.isRunning = false) :
    textOf Event.dumpedText (m.closing mode) = m.lastDump mode := by
  unfold closing lastDump
  by_cases hoff : mode = .off
  · simp [hoff, textOf, Event.dumpedText]
  · simp [hoff, stopped, textOf, Event.dumpedText]

/-- A step that ends at a fault reports nothing. -/
theorem reports_of_faulted {f : Fault} (hf : m'.status = .faulted f) :
    reports mode [⟨m, events, m'⟩] = "" := by
  refine reports_silent (report_of_not_completes ?_) mode
  simp [Transition.completes, fault?, Status.fault?, hf]

theorem isRunning_of_faulted {f : Fault} (hf : m.status = .faulted f) : m.isRunning = false := by
  simp [isRunning, hf]

/-- The dump behind an executed instruction: the last one if it halts, its report otherwise. -/
theorem dumpedText_aftermath {i : Instruction} (running : m.isRunning = true)
    (fetched : m.fetch? = some i) (status : m'.status = .running) :
    textOf Event.dumpedText (m'.aftermath mode i) =
      reports mode [⟨m, events, m'.settled i⟩] ++ (m'.settled i).lastDump mode := by
  by_cases halts : i.op = .halt
  · have hsilent : Transition.report ⟨m, events, m'.halt⟩ = "" := by
      simp [Transition.report, fetched, halts]
    simp only [aftermath, settled, if_pos halts]
    rw [reports_silent hsilent, String.empty_append]
    exact dumpedText_closing rfl
  · have hruns : m'.isRunning = true := decide_eq_true status
    have hcompletes : Transition.completes ⟨m, events, m'⟩ = true := by
      simp [Transition.completes, running, fault?, Status.fault?, status]
    simp only [aftermath, settled, if_neg halts]
    rw [lastDump_of_running hruns, String.append_empty]
    unfold progress reports
    split
    · simp [Transition.report, fetched, hcompletes, halts, textOf, Event.dumpedText]
    · rfl

/-- **The account of a step**: what is written by then is the reports and, once the machine has
stopped, its last dump. -/
theorem Stepped.dumped (h : Stepped mode m m' events) :
    m.lastDump mode ++ textOf Event.dumpedText events =
      reports mode [⟨m, events, m'⟩] ++ m'.lastDump mode := by
  cases h with
  | idle stopped =>
    have hsilent : Transition.report ⟨m, [], m⟩ = "" :=
      report_of_not_completes (by simp [Transition.completes, stopped])
    rw [reports_silent hsilent, String.empty_append]
    exact String.append_empty
  | refused running gap next | lost running gap fetched next =>
    subst next
    rw [lastDump_of_running running, reports_of_faulted rfl, textOf_append, dumpedText_opening,
      dumpedText_closing (isRunning_of_faulted rfl), String.empty_append]
  | faulted running gap fetched refusal next | overrun running gap fetched refusal next =>
    subst next
    rw [lastDump_of_running running, reports_of_faulted rfl, textOf_append, dumpedText_opening,
      textOf_cons, dumpedText_closing (isRunning_of_faulted rfl), String.empty_append,
      String.empty_append]
    rfl
  | @executed i change after running gap fetched plan next =>
    have hstatus : after.status = .running := by
      rw [next, apply_status]
      exact status_of_isRunning running
    have hexecuted : textOf Event.dumpedText [.executed m.pc i after.view] = "" := rfl
    rw [lastDump_of_running running, textOf_append, dumpedText_opening, textOf_cons, textOf_append,
      textOf_append, dumpedText_change, hexecuted, dumpedText_aftermath running fetched hstatus]
    rfl

end Step

/-! ### Runs -/

/-- **The account of a run.** -/
theorem Run.dumped {mode : TraceMode} {origin m : Machine} {ts : List Transition}
    (ready : origin.isRunning = true) (run : Run mode origin ts m) :
    textOf Event.dumpedText (ts.flatMap Transition.events) =
      reports mode ts ++ m.lastDump mode := by
  refine run.invariant (P := fun ts m => textOf Event.dumpedText (ts.flatMap Transition.events) =
    reports mode ts ++ m.lastDump mode) ?_ ?_
  · rw [lastDump_of_running ready, reports]
    split <;> rfl
  · intro ts m m' events _ ih h
    rw [List.flatMap_append, textOf_append, List.flatMap_singleton, ih, String.append_assoc,
      h.dumped, ← String.append_assoc, ← reports_append]

/-! ### Sessions -/

namespace Session

/-- The session `s'` is `s` after the steps `ts`, with the dumps of these steps. -/
structure Dumped (s : Session) (ts : List Transition) (s' : Session) : Prop where
  run : Run s.mode s.machine ts s'.machine
  mode : s'.mode = s.mode
  keepsDumps : s'.keepsDumps = s.keepsDumps
  dumps : s.keepsDumps = true →
    s'.dumps = s.dumps ++ textOf Event.dumpedText (ts.flatMap Transition.events)

theorem foldl_observe_keepsDumps (events : List Event) (s : Session) :
    (events.foldl observe s).keepsDumps = s.keepsDumps := by
  refine foldl_observe_fixed (fun s e => ?_) events s
  cases e <;> simp only [observe] <;> split <;> rfl

/-- A session that keeps dumps keeps all of them. -/
theorem dumps_foldl_observe (events : List Event) {s : Session} (kept : s.keepsDumps = true) :
    (events.foldl observe s).dumps = s.dumps ++ textOf Event.dumpedText events := by
  refine foldl_observe_text (P := fun s => s.keepsDumps = true) ?_ ?_ events kept
  · intro s e kept
    exact (foldl_observe_keepsDumps [e] s).trans kept
  · intro s e kept
    cases e with
    | dumped text => simp only [observe, if_pos kept, Event.dumpedText]
    | _ =>
      simp only [observe, Event.dumpedText, String.append_empty]
      split <;> rfl

theorem Dumped.accumulates : Accumulates Dumped where
  refl s := ⟨.start, rfl, rfl, fun _ => String.append_empty.symm⟩
  trans := by
    intro s s' s'' ts us first second
    refine ⟨first.run.trans (first.mode ▸ second.run), second.mode.trans first.mode,
      second.keepsDumps.trans first.keepsDumps, fun kept => ?_⟩
    rw [second.dumps (first.keepsDumps.trans kept), first.dumps kept, List.flatMap_append,
      textOf_append, String.append_assoc]
  step := by
    intro s s' h
    rw [step?_eq] at h
    obtain ⟨⟨machine, events⟩, taken, rfl⟩ := Option.map_eq_some_iff.mp h
    obtain ⟨hmachine, hmode, -⟩ := foldl_observe_frame events { s with machine }
    refine ⟨⟨s.machine, events, machine⟩, ?_, hmode, foldl_observe_keepsDumps events _, ?_⟩
    · rw [hmachine]
      exact .step .start taken
    · intro kept
      rw [List.flatMap_singleton]
      exact dumps_foldl_observe events kept

/-- The session in another trace mode. -/
def inMode (s : Session) (mode : TraceMode) : Session :=
  { s with mode }

variable {size : Int64} {code : Array Instruction} {s s' : Session} {calls : List Call}

/-- The trace mode has no influence on where calls lead. -/
theorem serve?_inMode (served : s.serve? calls = some s') (mode : TraceMode) :
    ∃ u, (s.inMode mode).serve? calls = some u ∧ u.machine = s'.machine := by
  have alike : s.Alike (s.inMode mode) := ⟨rfl, fun _ _ => rfl, fun _ _ => rfl⟩
  have hserved := alike.serve? calls
  rw [served] at hserved
  generalize (s.inMode mode).serve? calls = result at hserved ⊢
  cases hserved with
  | some alike' => exact ⟨_, rfl, alike'.machine.symm⟩

theorem dumps_eq_transcript (loaded : s.machine = Machine.load size code)
    (kept : s.keepsDumps = true) (fresh : s.dumps = "") (served : s.serve? calls = some s')
    (stopped : s'.machine.isRunning = false) :
    ∃ ts, Run s.mode (Machine.load size code) ts s'.machine ∧
      s'.dumps = transcript s.mode ts s'.machine := by
  obtain ⟨ts, dumped⟩ := Dumped.accumulates.of_serve? served
  have run : Run s.mode (Machine.load size code) ts s'.machine := loaded ▸ dumped.run
  refine ⟨ts, run, ?_⟩
  rw [dumped.dumps kept, fresh, String.empty_append, run.dumped rfl, transcript_eq stopped]

end Session

/-- **The dumps are determined by the run.** A program that is run to a terminal state ends there
in every trace mode, by the same calls. It has dumped nothing in the first mode, its last state in
the second, and in the third also every instruction that went through before, each with the state
right behind it. What the second mode shows is therefore the end of what the third shows. -/
theorem dumps_determined {size : Int64} {code : Array Instruction} {s s' : Session}
    {calls : List Call} (loaded : s.machine = Machine.load size code)
    (kept : s.keepsDumps = true) (fresh : s.dumps = "") (served : s.serve? calls = some s')
    (stopped : s'.machine.isRunning = false) :
    (∀ mode, ∃ u ts, (s.inMode mode).serve? calls = some u ∧ u.machine = s'.machine ∧
      Run mode (Machine.load size code) ts u.machine ∧
      u.dumps = transcript mode ts u.machine) ∧
    ∃ u v text, (s.inMode .summary).serve? calls = some u ∧
      (s.inMode .verbose).serve? calls = some v ∧ v.dumps = text ++ u.dumps := by
  have hmodes : ∀ mode, ∃ u ts, (s.inMode mode).serve? calls = some u ∧ u.machine = s'.machine ∧
      Run mode (Machine.load size code) ts u.machine ∧
      u.dumps = transcript mode ts u.machine := by
    intro mode
    obtain ⟨u, hserved, hmachine⟩ := Session.serve?_inMode served mode
    rw [← hmachine] at stopped
    obtain ⟨ts, run, hdumps⟩ :=
      Session.dumps_eq_transcript (s := s.inMode mode) loaded kept fresh hserved stopped
    exact ⟨u, ts, hserved, hmachine, run, hdumps⟩
  refine ⟨hmodes, ?_⟩
  obtain ⟨u, us, hsummary, hu, -, hshort⟩ := hmodes .summary
  obtain ⟨v, ts, hverbose, hv, -, hlong⟩ := hmodes .verbose
  refine ⟨u, v, String.join (ts.map Transition.report), hsummary, hverbose, ?_⟩
  rw [hlong, hshort, hu, hv]
  rfl

/-- Loads a number and prints a register that holds none. -/
def loadThenFault : Array Instruction :=
  #[.ofArgs .li ["$t1", "5"] 0, .ofArgs .print ["$a0"] 0]

/-- The session in the verbose mode. -/
def loadThenFaultSession : Session :=
  { machine := Machine.load 2 loadThenFault, mode := .verbose }

def loadThenFaultDumps : String :=
  "\nInstruction: li $t1 5\n" ++
    "| Registers |\n" ++
    "| PC: 1 | SP: 2 | CL: 2 | FP: 1 | RA: null | AL: null | A0: null | T1: 5 | HP: 0 |\n" ++
    "| Memory |\n0: | null\t|\n1: | null\t|\n" ++
    "| Registers |\n" ++
    "| PC: 2 | SP: 2 | CL: 2 | FP: 1 | RA: null | AL: null | A0: null | T1: 5 | HP: 0 |\n" ++
    "| Memory |\n0: | null\t|\n1: | null\t|\n"

/-- The instruction that faults is not reported; the state it leaves is. -/
theorem dumps_determined_fault :
    ∃ s', loadThenFaultSession.serve? [.run 5] = some s' ∧ s'.machine.isRunning = false ∧
      s'.dumps = loadThenFaultDumps ∧
      (∀ mode, ∃ u ts, (loadThenFaultSession.inMode mode).serve? [.run 5] = some u ∧
        u.machine = s'.machine ∧ Run mode (Machine.load 2 loadThenFault) ts u.machine ∧
        u.dumps = transcript mode ts u.machine) ∧
      ∃ u v text, (loadThenFaultSession.inMode .summary).serve? [.run 5] = some u ∧
        (loadThenFaultSession.inMode .verbose).serve? [.run 5] = some v ∧
        v.dumps = text ++ u.dumps := by
  have hrun : (loadThenFaultSession.serve? [.run 5]).map
      (fun s => (s.machine.isRunning, s.dumps)) =
        some (false, loadThenFaultDumps) := by decide +kernel
  obtain ⟨s', served, hstate⟩ := Option.map_eq_some_iff.mp hrun
  obtain ⟨stopped, hdumps⟩ := Prod.mk.inj hstate
  exact ⟨s', served, stopped, hdumps, dumps_determined rfl rfl rfl served stopped⟩

end RegisterMachine
