import RegisterMachine.Proofs.Machine.Heap
import RegisterMachine.Proofs.Machine.Hooks
import RegisterMachine.Record.Recorder

/-!
# Recording is all or nothing

What a recorder hears of a run is a greeting, one call for each instruction that has executed, and a
farewell. It answers with a fixed script of statements, of which any may be refused. `Progress` says
where the script has led after each statement: either all of them were accepted and the draft holds
their effect, or the first refusal is kept and nothing was issued after it. The commit at the end
turns the one into the complete record and leaves the archive alone in the other.
-/

set_option autoImplicit false

namespace RegisterMachine

open Machine

/-! ### Statement by statement -/

/-- `e` is the first refusal in `script`, and `tried` are the statements up to it. -/
structure FirstRefusal (refuses : Statement → Option Refusal) (script tried : List Statement)
    (e : RecordError) : Prop where
  split : ∃ before after, script = before ++ e.statement :: after ∧
    tried = before ++ [e.statement] ∧ ∀ st ∈ before, refuses st = none
  refused : refuses e.statement = some e.refusal

namespace FirstRefusal

variable {refuses : Statement → Option Refusal} {script tried : List Statement} {e : RecordError}

theorem append (h : FirstRefusal refuses script tried e) (more : List Statement) :
    FirstRefusal refuses (script ++ more) tried e := by
  obtain ⟨before, after, rfl, htried, accepted⟩ := h.split
  refine ⟨⟨before, after ++ more, ?_, htried, accepted⟩, h.refused⟩
  rw [List.append_assoc, List.cons_append]

theorem last (accepted : ∀ st ∈ script, refuses st = none) {st : Statement} {refusal : Refusal}
    (refused : refuses st = some refusal) :
    FirstRefusal refuses (script ++ [st]) (script ++ [st]) ⟨st, refusal⟩ :=
  ⟨⟨script, [], rfl, rfl, accepted⟩, refused⟩

end FirstRefusal

/-- A recorder that had issued the statements `earlier` when it came to `script`, which it has
issued on `a` as far as it got. -/
inductive Progress (policy : Policy) (a : Archive) (id : RunId) (seq : Nat)
    (earlier script : List Statement) (r : Recorder) : Prop
  | writing (accepted : ∀ st ∈ script, a.refusal? policy st = none)
      (state : r = { id, seq, draft := some (script.foldl Archive.execute a),
                     issued := (earlier ++ script).toArray })
  | failed {tried : List Statement} {e : RecordError}
      (first : FirstRefusal (a.refusal? policy) script tried e) (error : r.error = some e)
      (draft : r.draft = none) (issued : r.issued.toList = earlier ++ tried)

namespace Recorder

/-- A recorder that has failed issues no statement. -/
theorem execute_of_error (policy : Policy) {r : Recorder} {e : RecordError}
    (h : r.error = some e) (st : Statement) : r.execute policy st = r := by
  obtain ⟨id, seq, draft, error, issued⟩ := r
  obtain rfl : error = some e := h
  rfl

theorem commit_of_error {policy : Policy} {a : Archive} {r : Recorder} {e : RecordError}
    (h : (r.execute policy (.commit r.id)).error = some e) :
    r.commit policy a = (a, r.execute policy (.commit r.id)) := by
  unfold commit
  split
  · simp_all
  · rfl

theorem commit_of_failed (policy : Policy) (a : Archive) {r : Recorder} {e : RecordError}
    (h : r.error = some e) : r.commit policy a = (a, r) := by
  have hkept := execute_of_error policy h (.commit r.id)
  rw [commit_of_error (hkept.symm ▸ h), hkept]

theorem not_isWriting {r : Recorder} {e : RecordError} (h : r.error = some e) :
    r.isWriting = false := by
  simp [isWriting, h]

end Recorder

namespace Progress

variable {policy : Policy} {a : Archive} {id : RunId} {seq : Nat}
  {earlier script : List Statement} {r : Recorder}

/-- **One statement.** Only inserting a run looks at the tables, and then they are still those of
`a`. -/
theorem execute (h : Progress policy a id seq earlier script r) (st : Statement)
    (stable : (script.foldl Archive.execute a).refusal? policy st = a.refusal? policy st) :
    Progress policy a id seq earlier (script ++ [st]) (r.execute policy st) := by
  cases h with
  | failed first error draft issued =>
    rw [Recorder.execute_of_error policy error]
    exact .failed (first.append [st]) error draft issued
  | writing accepted state =>
    subst state
    simp only [Recorder.execute, stable, List.push_toArray, List.append_assoc]
    cases hrefusal : a.refusal? policy st with
    | some refusal => exact .failed (.last accepted hrefusal) rfl rfl rfl
    | none =>
      refine .writing ?_ ?_
      · intro st' hmem
        rcases List.mem_append.mp hmem with hmem | hmem
        · exact accepted st' hmem
        · rwa [List.mem_singleton.mp hmem]
      · simp only [List.foldl_append, List.foldl_cons, List.foldl_nil]

/-- A step that is recorded takes the next number. -/
theorem note (h : Progress policy a id seq earlier script r) (pc : Int64) (i : Instruction)
    (view : View) :
    Progress policy a id (seq + 1) earlier
      (script ++ [.insertStep id (.ofView seq pc i view)]) (r.note policy pc i view) := by
  cases h with
  | failed first error draft issued =>
    have hnote : r.note policy pc i view = r := by
      simp only [Recorder.note, Recorder.execute_of_error policy error, Recorder.not_isWriting error,
        Bool.false_eq_true, if_false]
    rw [hnote]
    exact .failed (first.append _) error draft issued
  | writing accepted state =>
    subst state
    unfold Recorder.note
    have hnext := execute (.writing accepted rfl : Progress policy a id seq earlier script _)
      (.insertStep id (.ofView seq pc i view)) rfl
    cases hnext with
    | failed first error draft issued =>
      simp only [Recorder.not_isWriting error, Bool.false_eq_true, if_false]
      exact .failed first error draft issued
    | writing accepted state =>
      simp only [state]
      exact .writing accepted rfl

theorem finishRun (h : Progress policy a id seq earlier script r) (steps : Nat)
    (outcome : Outcome) :
    Progress policy a id seq earlier (script ++ [.finishRun id steps outcome])
      (r.execute policy (.finishRun r.id steps outcome)) := by
  cases h with
  | failed first error draft issued =>
    rw [Recorder.execute_of_error policy error]
    exact .failed (first.append _) error draft issued
  | writing accepted state =>
    subst state
    exact execute (.writing accepted rfl) _ rfl

/-- **The commit** puts the draft in place of the archive, or leaves everything as it was. -/
theorem commit (h : Progress policy a id seq earlier script r) :
    (∀ st ∈ script ++ [.commit id], a.refusal? policy st = none) ∧
      r.commit policy a = (script.foldl Archive.execute a,
        { id, seq, issued := (earlier ++ (script ++ [Statement.commit id])).toArray }) ∨
    ∃ r' tried e, r.commit policy a = (a, r') ∧
      FirstRefusal (a.refusal? policy) (script ++ [.commit id]) tried e ∧
      r'.error = some e ∧ r'.draft = none ∧ r'.issued.toList = earlier ++ tried := by
  cases h with
  | failed first error draft issued =>
    exact .inr ⟨r, _, _, Recorder.commit_of_failed policy a error, first.append _, error, draft,
      issued⟩
  | writing accepted state =>
    subst state
    have hnext := execute (.writing accepted rfl : Progress policy a id seq earlier script _)
      (.commit id) rfl
    cases hnext with
    | failed first error draft issued =>
      exact .inr ⟨_, _, _, Recorder.commit_of_error error, first, error, draft, issued⟩
    | writing accepted state =>
      refine .inl ⟨accepted, ?_⟩
      unfold Recorder.commit
      simp only [state, List.foldl_append, List.foldl_cons, List.foldl_nil]
      rfl

end Progress

/-! ### What a recorder hears -/

namespace Transition

/-- The call after an instruction that has executed. The machine counts as running until it has
executed its last instruction. -/
def executedCall (t : Transition) : Event :=
  .executed t.before.pc (t.before.fetch?.getD {}) { t.after.view with status := .running }

/-- The row that is recorded for the step under the number `seq`. -/
def row (seq : Nat) (t : Transition) : StepRow :=
  .ofView seq t.before.pc (t.before.fetch?.getD {}) t.after.view

end Transition

def Machine.farewell (m : Machine) : List Event :=
  if m.isRunning then [] else [.ended m.fault? m.view]

/-- The calls that a recorder does not pass over. -/
def heard (hooks : List Event) : List Event :=
  hooks.filter fun e => !e.isFetched

section Heard

variable {mode : TraceMode} {m m' : Machine} {t : Transition} {calls : List Event}

theorem heard_append (xs ys : List Event) : heard (xs ++ ys) = heard xs ++ heard ys :=
  List.filter_append xs ys

theorem heard_opening (m : Machine) : heard m.opening = m.opening := by
  unfold opening
  split <;> rfl

theorem opening_of_begun (begun : m.begun = true) : m.opening = [] := if_pos begun

theorem farewell_eq (m : Machine) :
    m.farewell = match m.status with
      | .running => []
      | .halted => [.ended none m.view]
      | .faulted f => [.ended (some f) m.view] := by
  unfold farewell
  cases hstatus : m.status <;> simp [isRunning, fault?, Status.fault?, hstatus]

/-- What is heard of one step of a running machine. -/
theorem heard_hooked (hcalls : t.hooks = calls) (way : Hooked t.before t.after calls)
    (running : t.before.isRunning = true) :
    heard t.hooks = t.before.opening ++ (([t].filter Transition.completes).map
      Transition.executedCall ++ t.after.farewell) := by
  obtain ⟨m, events, m'⟩ := t
  simp only at way running
  have hcompletes : Transition.completes ⟨m, events, m'⟩ = m'.status.fault?.isNone := by
    rw [Transition.completes, running]
    rfl
  rw [hcalls, farewell_eq, List.filter_cons, hcompletes]
  cases way with
  | idle stopped =>
    rw [running] at stopped
    cases stopped
  | refused _ begun status steps =>
    simp only [status]
    rw [heard_append, heard_opening]
    rfl
  | broken _ fetched begun status steps =>
    simp only [status]
    rw [heard_append, heard_opening]
    rfl
  | @executed _ i _ fetched begun status steps =>
    have hcall : Transition.executedCall ⟨m, events, m'⟩ = .executed m.pc i m'.view := by
      simp only [Transition.executedCall, fetched, view, status, Option.getD_some]
    simp only [status]
    rw [heard_append, heard_opening]
    simp [Status.fault?, hcall, heard, Event.isFetched]
  | @halted _ i _ fetched begun status steps =>
    have hcall : Transition.executedCall ⟨m, events, m'⟩ =
        .executed m.pc i { m'.view with status := .running } := by
      simp only [Transition.executedCall, fetched, Option.getD_some]
    simp only [status]
    rw [heard_append, heard_opening]
    simp [Status.fault?, hcall, heard, Event.isFetched]

/-- **What is heard of a run**: once the first step is greeted, one call for each instruction that
has executed, and the farewell once the machine has stopped. -/
theorem heard_run {size : Int64} {code : Array Instruction} {ts : List Transition}
    (run : Run mode (Machine.load size code) ts m) :
    heard (ts.flatMap Transition.hooks) ++ m.opening =
      (Machine.load size code).opening ++
        ((ts.filter Transition.completes).map Transition.executedCall ++ m.farewell) := by
  refine run.invariant (P := fun ts m => heard (ts.flatMap Transition.hooks) ++ m.opening =
      (Machine.load size code).opening ++
        ((ts.filter Transition.completes).map Transition.executedCall ++ m.farewell)) rfl ?_
  intro ts m m' events sofar ih h
  have way := h.hooked
  cases running : m.isRunning with
  | false =>
    -- A machine that has stopped adds nothing to what was heard.
    obtain ⟨rfl, silent⟩ := way.stays running
    have hhooks : Transition.hooks ⟨m', events, m'⟩ = [] := silent
    have hidle : ¬ Transition.completes ⟨m', events, m'⟩ = true := by
      simp [Transition.completes, running]
    rw [List.flatMap_append, List.flatMap_singleton, hhooks, List.append_nil, List.filter_append,
      List.filter_cons_of_neg hidle, List.filter_nil, List.append_nil]
    exact ih
  | true =>
    have hbegun : m'.begun = true := by
      rcases way.begun_or_idle with begun | ⟨stopped, -⟩
      · exact begun
      · rw [running] at stopped
        cases stopped
    have hstep := heard_hooked (t := ⟨m, events, m'⟩) rfl way running
    have hfarewell : m.farewell = [] := if_pos running
    rw [hfarewell, List.append_nil] at ih
    rw [List.flatMap_append, List.flatMap_singleton, heard_append, hstep, opening_of_begun hbegun,
      List.append_nil, ← List.append_assoc, ih, List.append_assoc, List.filter_append,
      List.map_append, List.append_assoc]

end Heard

/-! ### The script of a run -/

/-- The rows of steps, numbered from `seq` on. -/
def rowsFrom (seq : Nat) (ts : List Transition) : List StepRow :=
  (ts.zipIdx seq).map fun (t, k) => t.row k

/-- The row about a run that has led to `m`. -/
def Machine.runRow (m : Machine) (id : RunId) : RunRow :=
  { id, memSize := m.arena.size, codeLength := m.code.size, steps := m.steps,
    outcome := .ofFault m.fault? }

/-- What is issued for a run that has led to `m`, with `rows` about its steps: all but the commit. -/
def draftScript (id : RunId) (rows : List StepRow) (m : Machine) : List Statement :=
  [.openDraft id, .insertRun { id, memSize := m.arena.size, codeLength := m.code.size },
    .prepareSteps] ++ rows.map (.insertStep id) ++ [.finishRun id m.steps (.ofFault m.fault?)]

/-- The archive with one more record. -/
def Archive.withRecord (a : Archive) (run : RunRow) (rows : List StepRow) : Archive where
  runs := a.runs ++ [run]
  steps := a.steps ++ (rows.map fun row => (run.id, row)).toArray

section Script

variable {policy : Policy} {a : Archive} {id : RunId}

theorem contains_of_mem {row : RunRow} (h : row ∈ a.runs) : a.contains row.id = true := by
  rw [Archive.contains, Archive.find?, List.find?_isSome]
  exact ⟨row, h, beq_self_eq_true _⟩

/-- A run is only inserted into an archive that has no record of it. -/
theorem absent_of_accepted {row : RunRow} (h : a.refusal? policy (.insertRun row) = none) :
    a.contains row.id = false := by
  simp only [Archive.refusal?, Option.or_eq_none_iff] at h
  by_contra hcontains
  rw [if_pos (Bool.not_eq_false _ ▸ hcontains)] at h
  cases h.2

theorem foldl_insertStep (rows : List StepRow) (a : Archive) (id : RunId) :
    (rows.map (Statement.insertStep id)).foldl Archive.execute a =
      { a with steps := a.steps ++ (rows.map fun row => (id, row)).toArray } := by
  induction rows generalizing a with
  | nil => simp
  | cons row rest ih =>
    rw [List.map_cons, List.foldl_cons, ih]
    simp [Archive.execute, Archive.insertStep]

/-- **The draft of a run is the archive with its record**, if there was none before. -/
theorem foldl_draftScript (absent : a.contains id = false) (rows : List StepRow) (m : Machine) :
    (draftScript id rows m).foldl Archive.execute a = a.withRecord (m.runRow id) rows := by
  have hothers : ∀ row ∈ a.runs, row.id ≠ id := by
    rintro row hrow rfl
    rw [contains_of_mem hrow] at absent
    cases absent
  rw [draftScript, List.foldl_append, List.foldl_append, foldl_insertStep]
  simp only [List.foldl_cons, List.foldl_nil, Archive.execute, Archive.insertRun, Archive.finishRun,
    Archive.withRecord, runRow, List.map_append, List.map_cons, List.map_nil, if_true]
  congr 2
  exact (List.map_congr_left fun row hrow => if_neg (hothers row hrow)).trans (List.map_id' _)

end Script

/-! ### Following a run -/

section Follow

variable {policy : Policy} {a : Archive} {id : RunId} {seq : Nat}
  {earlier script : List Statement} {r : Recorder}

theorem foldl_observe_heard (hooks : List Event) (s : Archive × Recorder) :
    hooks.foldl (Recorder.observe policy id) s =
      (heard hooks).foldl (Recorder.observe policy id) s := by
  induction hooks generalizing s with
  | nil => rfl
  | cons e rest ih =>
    rw [List.foldl_cons, ih]
    cases e <;> rfl

theorem Progress.start (sound : r.error = none) (idle : r.draft = none) (size length : Nat) :
    Progress policy a id r.seq r.issued.toList
      [.openDraft id, .insertRun { id, memSize := size, codeLength := length }, .prepareSteps]
      (r.start policy a id size length) := by
  obtain ⟨id', seq, draft, error, issued⟩ := r
  obtain rfl : error = none := sound
  obtain rfl : draft = none := idle
  have hnone : ∀ st ∈ ([] : List Statement), a.refusal? policy st = none := nofun
  simp only [Recorder.start, Option.isSome_none, Bool.false_eq_true, if_false]
  cases hopen : a.refusal? policy (.openDraft id) with
  | some refusal =>
    have hissued : (issued.push (.openDraft id)).toList = issued.toList ++ [.openDraft id] :=
      Array.toList_push
    exact .failed ((FirstRefusal.last hnone hopen).append [_, _]) rfl rfl hissued
  | none =>
    have hopened : Progress policy a id seq issued.toList [.openDraft id]
        { id, seq, draft := some a, issued := issued.push (.openDraft id) } := by
      refine .writing ?_ ?_
      · simpa using hopen
      · rw [← Array.toList_push, Array.toArray_toList]
        rfl
    exact (hopened.execute _ rfl).execute _ rfl

/-- One call for each instruction that has executed. -/
theorem Progress.notes (h : Progress policy a id seq earlier script r) (ts : List Transition) :
    ∃ r', (ts.map Transition.executedCall).foldl (Recorder.observe policy id) (a, r) = (a, r') ∧
      Progress policy a id (seq + ts.length) earlier
        (script ++ (rowsFrom seq ts).map (.insertStep id)) r' := by
  induction ts generalizing seq script r with
  | nil => exact ⟨r, rfl, by simpa [rowsFrom] using h⟩
  | cons t rest ih =>
    have hnext := h.note t.before.pc (t.before.fetch?.getD {})
      { t.after.view with status := .running }
    obtain ⟨r', hfold, hrest⟩ := ih hnext
    refine ⟨r', hfold, ?_⟩
    rw [List.append_assoc, Nat.add_right_comm] at hrest
    exact hrest

end Follow

/-- What has become of a recorder `r` and the archive `a` after a run for which it was to issue
`script`: they hold `whole`, or the archive is as it was before and the recorder knows why. -/
inductive AllOrNothing (policy : Policy) (a : Archive) (r : Recorder) (script : List Statement)
    (whole : Archive) : Archive × Recorder → Prop
  | complete {r' : Recorder} (sound : r.error = none)
      (accepted : ∀ st ∈ script, a.refusal? policy st = none) (error : r'.error = none)
      (draft : r'.draft = none) (issued : r'.issued.toList = r.issued.toList ++ script) :
      AllOrNothing policy a r script whole (whole, r')
  | nothing {r' : Recorder} {tried : List Statement} {e : RecordError} (sound : r.error = none)
      (first : FirstRefusal (a.refusal? policy) script tried e) (error : r'.error = some e)
      (draft : r'.draft = none) (issued : r'.issued.toList = r.issued.toList ++ tried) :
      AllOrNothing policy a r script whole (a, r')
  /-- The recorder had failed before the run, and does not record it. -/
  | useless {e : RecordError} (failed : r.error = some e) :
      AllOrNothing policy a r script whole (a, r)

section Run

variable {mode : TraceMode} {size : Int64} {code : Array Instruction} {ts : List Transition}
  {m : Machine} {policy : Policy} {a : Archive} {r : Recorder} {id : RunId}

/-- What is heard of a run that is over. -/
theorem heard_stopped (run : Run mode (Machine.load size code) ts m)
    (stopped : m.isRunning = false) :
    heard (ts.flatMap Transition.hooks) =
      [.began m.arena.size m.code.size (Machine.load size code).view] ++
        ((ts.filter Transition.completes).map Transition.executedCall ++
          [.ended m.fault? m.view]) := by
  have hbegun : m.begun = true := by
    rcases begun_run run with ⟨-, running, -⟩ | ⟨-, begun⟩
    · rw [stopped] at running
      cases running
    · exact begun
  have hfarewell : m.farewell = [.ended m.fault? m.view] := by
    rw [farewell, stopped]
    rfl
  have hheard := heard_run run
  rw [opening_of_begun hbegun, List.append_nil, hfarewell] at hheard
  have hsize : m.arena.size = (Machine.load size code).arena.size :=
    (arena_size_run run).trans (Arena.size_ofSize size).symm
  rw [hheard, hsize, run.code_eq]
  rfl

/-- A recorder that has failed does not follow a run. -/
theorem foldl_observe_of_error {e : RecordError} (failed : r.error = some e) (hooks : List Event) :
    hooks.foldl (Recorder.observe policy id) (a, r) = (a, r) := by
  induction hooks with
  | nil => rfl
  | cons call rest ih =>
    have hcall : Recorder.observe policy id (a, r) call = (a, r) := by
      cases call <;> simp [Recorder.observe, Recorder.start, Recorder.note, Recorder.finish,
        Recorder.execute_of_error policy failed, Recorder.commit_of_failed policy a failed,
        Recorder.not_isWriting failed, failed]
    rw [List.foldl_cons, hcall, ih]

/-- **Every run is recorded completely or not at all.** -/
theorem allOrNothing_run (run : Run mode (Machine.load size code) ts m)
    (stopped : m.isRunning = false) (idle : r.draft = none) :
    AllOrNothing policy a r
      (draftScript id (rowsFrom r.seq (ts.filter Transition.completes)) m ++ [.commit id])
      (a.withRecord (m.runRow id) (rowsFrom r.seq (ts.filter Transition.completes)))
      ((ts.flatMap Transition.hooks).foldl (Recorder.observe policy id) (a, r)) := by
  cases failed : r.error with
  | some e =>
    rw [foldl_observe_of_error failed]
    exact .useless failed
  | none =>
    have hstart : Progress policy a id r.seq r.issued.toList _
        (r.start policy a id m.arena.size m.code.size) := .start failed idle _ _
    obtain ⟨r', hnotes, hprogress⟩ := hstart.notes (ts.filter Transition.completes)
    have hbegan : [Event.began m.arena.size m.code.size (Machine.load size code).view].foldl
        (Recorder.observe policy id) (a, r) =
          (a, r.start policy a id m.arena.size m.code.size) := rfl
    have hended : [Event.ended m.fault? m.view].foldl (Recorder.observe policy id) (a, r') =
        (r'.execute policy (.finishRun r'.id m.steps (.ofFault m.fault?))).commit policy a := rfl
    rw [foldl_observe_heard, heard_stopped run stopped, List.foldl_append, List.foldl_append,
      hbegan, hnotes, hended]
    rcases (hprogress.finishRun m.steps (.ofFault m.fault?)).commit with
      ⟨accepted, hcommit⟩ | ⟨r'', tried, e, hcommit, first, error, draft, issued⟩
    · have habsent : a.contains id = false :=
        absent_of_accepted (accepted (.insertRun ⟨id, m.arena.size, m.code.size, 0, .running⟩)
          (by simp))
      have hdraft := foldl_draftScript habsent (rowsFrom r.seq (ts.filter Transition.completes)) m
      rw [draftScript] at hdraft
      rw [hcommit, hdraft]
      exact .complete failed accepted rfl rfl rfl
    · rw [hcommit]
      exact .nothing failed first error draft issued

end Run

/-- **Recording is all or nothing.** Whatever the database refuses during a run, the archive holds
the complete record afterwards, or it is as it was and the recorder keeps the first refusal. The
session is the same as without the recorder. -/
theorem recording_all_or_nothing {size : Int64} {code : Array Instruction} {s s' : Session}
    {calls : List Call} (loaded : s.machine = Machine.load size code)
    (attached : s.keepsHooks = true) (fresh : s.hooks = #[]) (served : s.serve? calls = some s')
    (stopped : s'.machine.isRunning = false) {r : Recorder} (idle : r.draft = none)
    (policy : Policy) (a : Archive) (id : RunId) :
    (∃ ts, Run s.mode (Machine.load size code) ts s'.machine ∧
      AllOrNothing policy a r
        (draftScript id (rowsFrom r.seq (ts.filter Transition.completes)) s'.machine ++ [.commit id])
        (a.withRecord (s'.machine.runRow id) (rowsFrom r.seq (ts.filter Transition.completes)))
        (s'.hooks.toList.foldl (Recorder.observe policy id) (a, r))) ∧
    s.unwatched.serve? calls = some s'.unwatched := by
  obtain ⟨ts, run, hhooks⟩ := Session.run_of_serve? loaded attached fresh served
  refine ⟨⟨ts, run, ?_⟩, ?_⟩
  · rw [hhooks]
    exact allOrNothing_run run stopped idle
  · rw [Session.serve?_unwatched, served]
    rfl

/-- Two numbers, then the end. -/
def twoLoads : Array Instruction :=
  #[.ofArgs .li ["$t1", "5"] 0, .ofArgs .li ["$a0", "7"] 0, .ofArgs .halt [] 0]

/-- A database that fails at the second step of a run. -/
def failSecondStep : Policy
  | .insertStep _ row => if row.seq = 1 then some (.other "disk I/O error") else none
  | _ => none

/-- The recorder stops at its fifth statement, and the archive stays empty. -/
theorem recording_all_or_nothing_failing :
    ∃ s', Session.serve? { machine := Machine.load 8 twoLoads } [.run 10] = some s' ∧
      s'.machine.isRunning = false ∧
      ((s'.hooks.toList.foldl (Recorder.observe failSecondStep "r") ({}, {})).1 = {} ∧
        (s'.hooks.toList.foldl (Recorder.observe failSecondStep "r") ({}, {})).2.issued.size = 5) ∧
      (∃ ts, Run .off (Machine.load 8 twoLoads) ts s'.machine ∧
        AllOrNothing failSecondStep {} {}
          (draftScript "r" (rowsFrom 0 (ts.filter Transition.completes)) s'.machine ++ [.commit "r"])
          (Archive.withRecord {} (s'.machine.runRow "r")
            (rowsFrom 0 (ts.filter Transition.completes)))
          (s'.hooks.toList.foldl (Recorder.observe failSecondStep "r") ({}, {}))) ∧
      (Session.unwatched { machine := Machine.load 8 twoLoads }).serve? [.run 10] =
        some s'.unwatched := by
  have hserved : (Session.serve? { machine := Machine.load 8 twoLoads } [.run 10]).map
      (fun s => (s.machine.isRunning,
        (s.hooks.toList.foldl (Recorder.observe failSecondStep "r") ({}, {})).1,
        (s.hooks.toList.foldl (Recorder.observe failSecondStep "r") ({}, {})).2.issued.size)) =
      some (false, {}, 5) := by decide +kernel
  obtain ⟨s', served, hend⟩ := Option.map_eq_some_iff.mp hserved
  obtain ⟨stopped, hend⟩ := Prod.mk.inj hend
  obtain ⟨recorded, same⟩ := recording_all_or_nothing rfl rfl rfl served stopped
    (r := {}) rfl failSecondStep {} "r"
  exact ⟨s', served, stopped, Prod.mk.inj hend, recorded, same⟩

end RegisterMachine
