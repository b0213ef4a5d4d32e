import Mathlib.Data.List.Forall2
import RegisterMachine.Proofs.Files.Writing
import RegisterMachine.Proofs.Record.Recording
import RegisterMachine.Record.Store

/-!
# Records read back

A store that has recorded a run gives it back: the row about the run, and a row for each instruction
that has executed, in order and with the registers as they were after it. Every store that can be
reached has a place of its own for its archive, so that what is put there is found there, and what
is elsewhere stays as it was.
-/

set_option autoImplicit false

namespace RegisterMachine

open Machine

/-! ### Places of archives -/

namespace Stores

variable {s s' : Stores} {location : Location}

/-- An archive can be kept at the location. -/
def Admits (s : Stores) : Location → Prop
  | .file place => place ≠ []
  | .memory n => n < s.memory.size

theorem Admits.mono (h : s.memory.size ≤ s'.memory.size) (hs : s.Admits location) :
    s'.Admits location := by
  cases location with
  | file place => exact hs
  | memory n => exact Nat.lt_of_lt_of_le hs h

/-- What is put at a location is found there, and nothing else changes. -/
theorem archive_setArchive (h : s.Admits location) (a : Archive) (l : Location) :
    (s.setArchive location a).archive l = if l = location then a else s.archive l := by
  cases location with
  | file place =>
    cases l with
    | memory n => rfl
    | file q =>
      simp only [setArchive, archive, Tree.node?_put _ h, Location.file.injEq]
      by_cases hq : q = place
      · rw [if_pos hq, if_pos hq]
      · rw [if_neg hq, if_neg hq]
  | memory n =>
    cases l with
    | file q => rfl
    | memory k =>
      simp only [setArchive, archive, Array.getD_eq_getD_getElem?, Array.getElem?_setIfInBounds,
        Location.memory.injEq, if_pos (show n < s.memory.size from h)]
      by_cases hk : k = n
      · rw [if_pos hk, if_pos hk.symm]
        rfl
      · rw [if_neg hk, if_neg (Ne.symm hk)]

theorem size_memory_setArchive (s : Stores) (location : Location) (a : Archive) :
    (s.setArchive location a).memory.size = s.memory.size := by
  cases location with
  | file place => rfl
  | memory n => exact Array.size_setIfInBounds

theorem stores_setArchive (s : Stores) (location : Location) (a : Archive) :
    (s.setArchive location a).stores = s.stores := by
  cases location <;> rfl

theorem recorders_setArchive (s : Stores) (location : Location) (a : Archive) :
    (s.setArchive location a).recorders = s.recorders := by
  cases location <;> rfl

theorem act_eq {recorder store : Nat} {r : Recorder}
    (h : s.recorders[recorder]? = some (store, r))
    (action : Policy → Archive → Recorder → Archive × Recorder) {a : Archive} {r' : Recorder}
    (haction : action (s.rules recorder store) (s.archive (s.location store)) r = (a, r')) :
    s.act recorder action =
      { s with recorders := s.recorders.setIfInBounds recorder (store, r') }.setArchive
        (s.location store) a := by
  have hsame : Stores.archive { s with recorders := s.recorders.setIfInBounds recorder (store, {}) }
      (s.location store) = s.archive (s.location store) := by
    cases s.location store <;> rfl
  simp only [act, h, hsame, haction, Array.setIfInBounds_setIfInBounds]

/-- Every store has a location at which an archive can be kept. -/
def Lodged (s : Stores) : Prop :=
  ∀ store ∈ s.stores, s.Admits store.location

/-- The stores that can come about on some tree. -/
inductive Reachable : Stores → Prop
  | start (tree : Tree) : Reachable { tree }
  | opened {s : Stores} (sofar : Reachable s) (name : String) : Reachable (s.openStore name).1
  | closed {s : Stores} (sofar : Reachable s) (store : Nat) : Reachable (s.closeStore store)
  | joined {s : Stores} (sofar : Reachable s) (store : Nat) : Reachable (s.addRecorder store).1
  | acted {s : Stores} (sofar : Reachable s) (recorder : Nat)
      (action : Policy → Archive → Recorder → Archive × Recorder) :
      Reachable (s.act recorder action)

theorem Lodged.of_stores (hs : s.Lodged) (hstores : s'.stores = s.stores)
    (hsize : s.memory.size ≤ s'.memory.size) : s'.Lodged := by
  intro store hstore
  rw [hstores] at hstore
  exact (hs store hstore).mono hsize

theorem Lodged.push (hs : s.Lodged) {store : Store} (h : s.Admits store.location) :
    Lodged { s with stores := s.stores.push store } := by
  intro x hx
  rcases Array.mem_push.mp hx with hx | rfl
  · exact hs x hx
  · exact h

/-- Only a place that is no directory is opened, so never the root. -/
theorem openFile_place {t t' : Tree} {a : Address} {place : Place}
    (h : openFile t a place = .ok t') : place ≠ [] := by
  rintro rfl
  unfold openFile at h
  split at h
  · cases h
  · split at h
    · cases h
    · split at h <;> simp_all [Tree.node?]

theorem mem_of_sharing? {name : Option (String × String)} {store : Store}
    (h : s.sharing? name = some store) : store ∈ s.stores := by
  unfold sharing? at h
  split at h
  · cases h
  · exact Array.mem_of_find?_eq_some h

theorem reach_eq_ok {a : Address} (hs : s.Lodged) (h : s.reach a = .ok (s', location)) :
    s'.stores = s.stores ∧ s.memory.size ≤ s'.memory.size ∧ s'.Admits location := by
  unfold reach at h
  split at h
  · split at h
    · next store hshared =>
      obtain ⟨rfl, rfl⟩ := Prod.mk.inj (Except.ok.inj h)
      exact ⟨rfl, Nat.le_refl _, hs store (mem_of_sharing? hshared)⟩
    · obtain ⟨rfl, rfl⟩ := Prod.mk.inj (Except.ok.inj h)
      have hsize : s.memory.size < (s.memory.push {}).size := by
        rw [Array.size_push]
        omega
      exact ⟨rfl, Nat.le_of_lt hsize, hsize⟩
  · split at h
    · cases h
    · next place hplace =>
      cases hopen : openFile s.tree a place with
      | error code =>
        rw [hopen] at h
        cases h
      | ok tree =>
        rw [hopen] at h
        obtain ⟨rfl, rfl⟩ := Prod.mk.inj (Except.ok.inj h)
        exact ⟨rfl, Nat.le_refl _, openFile_place hopen⟩

theorem leaveJournal_frame (s : Stores) (location : Location) (journal : JournalMode) :
    (s.leaveJournal location journal).stores = s.stores ∧
      (s.leaveJournal location journal).memory = s.memory := by
  unfold leaveJournal
  split <;> exact ⟨rfl, rfl⟩

theorem furnish_frame (s : Stores) (location : Location) (journal : JournalMode) :
    (s.furnish location journal).stores = s.stores ∧
      (s.furnish location journal).memory = s.memory := by
  cases location with
  | memory n => exact ⟨rfl, rfl⟩
  | file place => exact leaveJournal_frame _ _ _

theorem lodged_openStore (hs : s.Lodged) (name : String) : (s.openStore name).1.Lodged := by
  unfold openStore
  split
  · exact hs
  · next a _ =>
    split
    · exact hs
    · next s₁ location hreach =>
      obtain ⟨hstores, hsize, hadmits⟩ := reach_eq_ok hs hreach
      have hs₁ : s₁.Lodged := hs.of_stores hstores hsize
      simp only
      split
      · exact hs₁
      · next connection _ =>
        split
        · obtain ⟨hstores', hmemory⟩ := leaveJournal_frame s₁ location connection.journal
          exact hs₁.of_stores hstores' (Nat.le_of_eq (congrArg Array.size hmemory).symm)
        · exact hs₁
        · split
          · exact hs₁.push hadmits
          · obtain ⟨hstores', hmemory⟩ := furnish_frame s₁ location connection.journal
            have hsize' := Nat.le_of_eq (congrArg Array.size hmemory).symm
            exact (hs₁.of_stores hstores' hsize').push (hadmits.mono hsize')

theorem lodged_closeStore (hs : s.Lodged) (number : Nat) : (s.closeStore number).Lodged := by
  intro store hstore
  obtain ⟨i, hi⟩ := Array.mem_iff_getElem?.mp hstore
  simp only [closeStore, Array.getElem?_modify] at hi
  split at hi
  · obtain ⟨old, hold, rfl⟩ := Option.map_eq_some_iff.mp hi
    exact hs old (Array.mem_of_getElem? hold)
  · exact hs store (Array.mem_of_getElem? hi)

/-- **Every store that can be reached has a place for its archive.** -/
theorem Reachable.lodged (h : s.Reachable) : s.Lodged := by
  induction h with
  | start tree => simp [Lodged]
  | opened sofar name ih => exact lodged_openStore ih name
  | closed sofar store ih => exact lodged_closeStore ih store
  | joined sofar store ih => exact ih
  | @acted s sofar recorder action ih =>
    cases hrecorder : s.recorders[recorder]? with
    | none =>
      rw [act, hrecorder]
      exact ih
    | some entry =>
      rw [act_eq hrecorder action rfl]
      refine ih.of_stores (stores_setArchive _ _ _) ?_
      rw [size_memory_setArchive]

/-! ### A recorder of a store -/

theorem archive_congr (htree : s'.tree = s.tree) (hmemory : s'.memory = s.memory) (l : Location) :
    s'.archive l = s.archive l := by
  cases l with
  | file place => simp only [archive, htree]
  | memory n => simp only [archive, hmemory]

/-- `s'` is `s` after a recorder of `store` has become `r` and has left `a` in its archive. Nothing
else has changed. -/
structure Acted (s : Stores) (recorder store : Nat) (a : Archive) (r : Recorder) (s' : Stores) :
    Prop where
  stores : s'.stores = s.stores
  memory : s'.memory.size = s.memory.size
  count : s'.recorders.size = s.recorders.size
  recorders : ∀ n, s'.recorders[n]? = if n = recorder then some (store, r) else s.recorders[n]?
  archive : ∀ l, s'.archive l = if l = s.location store then a else s.archive l

section Acting

variable {recorder store : Nat} {a a' : Archive} {r r' : Recorder} {id : RunId}

theorem Acted.refl (h : s.recorders[recorder]? = some (store, r)) :
    Acted s recorder store (s.archive (s.location store)) r s := by
  refine ⟨rfl, rfl, rfl, ?_, ?_⟩
  · intro n
    split
    · next heq => rw [heq, h]
    · rfl
  · intro l
    split
    · next heq => rw [heq]
    · rfl

theorem Acted.location_eq (h : Acted s recorder store a r s') (n : Nat) :
    s'.location n = s.location n := by
  rw [Stores.location, Stores.location, h.stores]

theorem Acted.trans {s'' : Stores} (first : Acted s recorder store a r s')
    (second : Acted s' recorder store a' r' s'') : Acted s recorder store a' r' s'' := by
  refine ⟨second.stores.trans first.stores, second.memory.trans first.memory,
    second.count.trans first.count, ?_, ?_⟩
  · intro n
    rw [second.recorders, first.recorders]
    split <;> rfl
  · intro l
    rw [second.archive, first.archive, first.location_eq]
    split <;> rfl

/-- A recorder does not lock itself out. -/
theorem Acted.isLocked_eq (h : Acted s recorder store a r s') (l : Location) :
    s'.isLocked recorder l = s.isLocked recorder l := by
  unfold Stores.isLocked
  rw [h.count]
  congr 1
  funext n
  by_cases hn : n = recorder
  · simp [hn]
  · simp only [h.recorders, if_neg hn, h.location_eq]

theorem Acted.rules_eq (h : Acted s recorder store a r s') :
    s'.rules recorder store = s.rules recorder store := by
  rw [Stores.rules, Stores.rules, h.isLocked_eq, h.location_eq]
  simp only [isOpen, isWritable, connection, h.stores]

theorem acted_act (h : s.recorders[recorder]? = some (store, r))
    (admits : s.Admits (s.location store))
    (action : Policy → Archive → Recorder → Archive × Recorder)
    (haction : action (s.rules recorder store) (s.archive (s.location store)) r = (a, r')) :
    Acted s recorder store a r' (s.act recorder action) := by
  have hbound : recorder < s.recorders.size := (Array.getElem?_eq_some_iff.mp h).1
  rw [act_eq h action haction]
  refine ⟨stores_setArchive _ _ _, size_memory_setArchive _ _ _, ?_, ?_, ?_⟩
  · rw [recorders_setArchive, Array.size_setIfInBounds]
  · intro n
    rw [recorders_setArchive, Array.getElem?_setIfInBounds, if_pos hbound]
    by_cases hn : n = recorder
    · rw [if_pos hn, if_pos hn.symm]
    · rw [if_neg hn, if_neg (Ne.symm hn)]
  · intro l
    have hadmits : Admits { s with
        recorders := s.recorders.setIfInBounds recorder (store, r') } (s.location store) :=
      admits.mono (Nat.le_refl _)
    rw [archive_setArchive hadmits]
    exact congrArg _ (archive_congr rfl rfl l)

/-- **A recorder that is told of a run call by call.** What it makes of the calls is up to the rules
as they were at the start. -/
theorem acted_foldl_follow (h : s.recorders[recorder]? = some (store, r))
    (admits : s.Admits (s.location store)) {calls : List Event}
    (hfold : calls.foldl (Recorder.observe (s.rules recorder store) id)
      (s.archive (s.location store), r) = (a, r')) :
    Acted s recorder store a r'
      (calls.foldl (fun s call => s.follow recorder id [call]) s) := by
  induction calls generalizing s r with
  | nil =>
    obtain ⟨rfl, rfl⟩ := Prod.mk.inj hfold
    exact .refl h
  | cons call rest ih =>
    obtain ⟨a₁, r₁, hcall⟩ : ∃ a₁ r₁, Recorder.observe (s.rules recorder store) id
        (s.archive (s.location store), r) call = (a₁, r₁) := ⟨_, _, rfl⟩
    have first : Acted s recorder store a₁ r₁ (s.follow recorder id [call]) :=
      acted_act h admits _ hcall
    rw [List.foldl_cons, hcall] at hfold
    have hlocation := first.location_eq store
    have hrecorder : (s.follow recorder id [call]).recorders[recorder]? = some (store, r₁) := by
      rw [first.recorders, if_pos rfl]
    refine first.trans (ih hrecorder ?_ ?_)
    · rw [hlocation]
      exact admits.mono (Nat.le_of_eq first.memory.symm)
    · rw [first.rules_eq, hlocation, first.archive, if_pos rfl]
      exact hfold

end Acting

/-- The stores after a new recorder of `store` has followed the run `id`. -/
def recorded (s : Stores) (store : Nat) (id : RunId) (calls : List Event) : Stores :=
  calls.foldl (fun t call => t.follow (s.addRecorder store).2 id [call]) (s.addRecorder store).1

/-- A new recorder changes the archive of its store and nothing else. -/
theorem recorded_spec {store : Nat} (h : s.Admits (s.location store)) (id : RunId)
    (calls : List Event) : ∃ policy a r,
      calls.foldl (Recorder.observe policy id) (s.archive (s.location store), {}) = (a, r) ∧
      (s.recorded store id calls).stores = s.stores ∧
      (s.recorded store id calls).recordError? (s.addRecorder store).2 = r.error ∧
      ∀ l, (s.recorded store id calls).archive l =
        if l = s.location store then a else s.archive l := by
  have hrecorder : (s.addRecorder store).1.recorders[(s.addRecorder store).2]? =
      some (store, {}) := Array.getElem?_push_size
  have hsame : ∀ l, (s.addRecorder store).1.archive l = s.archive l := archive_congr rfl rfl
  obtain ⟨a, r, hfold⟩ : ∃ a r, calls.foldl
      (Recorder.observe ((s.addRecorder store).1.rules (s.addRecorder store).2 store) id)
      ((s.addRecorder store).1.archive ((s.addRecorder store).1.location store), {}) = (a, r) :=
    ⟨_, _, rfl⟩
  have acted : Acted _ _ store a r (s.recorded store id calls) :=
    acted_foldl_follow hrecorder (h.mono (Nat.le_refl _)) hfold
  rw [hsame] at hfold
  refine ⟨_, a, r, hfold, acted.stores, ?_, ?_⟩
  · rw [recordError?, acted.recorders, if_pos rfl]
    rfl
  · intro l
    rw [acted.archive, hsame]
    rfl

/-- What is loaded of a run depends on its own rows only. -/
theorem load_congr {store : Nat} {id : RunId} (hstores : s'.stores = s.stores)
    (hrun : (s'.archive (s.location store)).find? id = (s.archive (s.location store)).find? id)
    (hrows : (s'.archive (s.location store)).rows id = (s.archive (s.location store)).rows id) :
    s'.loadRecord store id = s.loadRecord store id ∧ s'.loadRows store id = s.loadRows store id := by
  have hopen : s'.isOpen store = s.isOpen store := by rw [isOpen, isOpen, hstores]
  have hlocation : s'.location store = s.location store := by rw [location, location, hstores]
  simp only [loadRecord, loadRows, hopen, hlocation, hrun, hrows, and_self]

/-- What is loaded from an open store. -/
theorem load_open {store : Nat} (hopen : s.isOpen store = true) (hstores : s'.stores = s.stores)
    (id : RunId) :
    s'.loadRows store id = .ok ((s'.archive (s.location store)).rows id) ∧
      ∀ row, (s'.archive (s.location store)).find? id = some row →
        s'.loadRecord store id = .ok row := by
  have hopen' : s'.isOpen store = true := by rw [← hopen, isOpen, isOpen, hstores]
  have hlocation : s'.location store = s.location store := by rw [location, location, hstores]
  refine ⟨?_, fun row hrow => ?_⟩
  · rw [loadRows, if_pos hopen', hlocation]
  · rw [loadRecord, if_pos hopen', hlocation, hrow]

theorem loadRecord_eq_notFound {store : Nat} {id : RunId}
    (h : s.loadRecord store id = .error (.notFound id)) :
    s.isOpen store = true ∧ (s.archive (s.location store)).find? id = none := by
  unfold loadRecord at h
  split at h
  · next hopen =>
    split at h
    · cases h
    · next hnone => exact ⟨hopen, hnone⟩
  · cases h

theorem Lodged.admits_location (hs : s.Lodged) {store : Nat} (hopen : s.isOpen store = true) :
    s.Admits (s.location store) := by
  cases hstore : s.stores[store]? with
  | none => simp [isOpen, hstore] at hopen
  | some found =>
    rw [location, hstore]
    exact hs found (Array.mem_of_getElem? hstore)

end Stores

/-! ### Reading an archive -/

namespace Archive

variable {a : Archive} {run : RunRow} {rows : List StepRow} {id : RunId}

theorem find?_withRecord (absent : a.find? run.id = none) :
    (a.withRecord run rows).find? run.id = some run := by
  rw [find?] at absent
  rw [find?, withRecord, List.find?_append, absent]
  simp

theorem find?_withRecord_of_ne (h : id ≠ run.id) :
    (a.withRecord run rows).find? id = a.find? id := by
  rw [find?, find?, withRecord, List.find?_append]
  simp [Ne.symm h]

theorem steps_withRecord :
    (a.withRecord run rows).steps.toList = a.steps.toList ++ rows.map fun row => (run.id, row) := by
  rw [withRecord, Array.toList_append]

/-- Rows that are already in order are found as they were written. -/
theorem rows_withRecord (absent : a.rows run.id = [])
    (ordered : rows.Pairwise fun x y => x.seq ≤ y.seq) :
    (a.withRecord run rows).rows run.id = rows := by
  have hold : (a.steps.toList.filter fun entry => entry.1 == run.id).map Prod.snd = [] :=
    List.eq_nil_of_length_eq_zero ((List.length_mergeSort _).symm.trans (congrArg _ absent))
  have hnew : ((rows.map fun row => (run.id, row)).filter
      fun entry => entry.1 == run.id).map Prod.snd = rows := by
    rw [List.filter_map, List.filter_eq_self.mpr (by simp), List.map_map]
    exact List.map_id' rows
  simp only [Archive.rows, steps_withRecord, List.filter_append, List.map_append, hold, hnew,
    List.nil_append]
  exact List.mergeSort_of_pairwise (ordered.imp fun h => decide_eq_true h)

theorem rows_withRecord_of_ne (h : id ≠ run.id) : (a.withRecord run rows).rows id = a.rows id := by
  have hnew : ((rows.map fun row => (run.id, row)).filter fun entry => entry.1 == id) = [] := by
    rw [List.filter_map, List.filter_eq_nil_iff.mpr (by simp [Ne.symm h]), List.map_nil]
  simp only [Archive.rows, steps_withRecord, List.filter_append, hnew, List.append_nil]

end Archive

/-! ### The rows of a run -/

/-- The row tells which instruction the step has executed, and what the registers were after it. -/
structure Transition.RecordedAs (t : Transition) (row : StepRow) : Prop where
  pc : row.pc = t.before.pc
  op : ∃ i, t.before.fetch? = some i ∧ row.op = i.op.name
  sp : row.sp = t.after.registers.get .sp
  hp : row.hp = t.after.registers.get .hp
  a0 : row.a0 = t.after.registers.get .a0

section Rows

variable {mode : TraceMode} {size : Int64} {code : Array Instruction} {ts : List Transition}
  {m : Machine}

theorem map_seq_rowsFrom (seq : Nat) (ts : List Transition) :
    (rowsFrom seq ts).map StepRow.seq = List.range' seq ts.length := by
  rw [rowsFrom, List.map_map]
  exact List.zipIdx_map_snd seq ts

theorem length_rowsFrom (seq : Nat) (ts : List Transition) :
    (rowsFrom seq ts).length = ts.length := by
  rw [rowsFrom, List.length_map, List.length_zipIdx]

theorem pairwise_rowsFrom (seq : Nat) (ts : List Transition) :
    (rowsFrom seq ts).Pairwise fun x y => x.seq ≤ y.seq := by
  have hsorted : ((rowsFrom seq ts).map StepRow.seq).Pairwise (· < ·) := by
    rw [map_seq_rowsFrom]
    exact List.pairwise_lt_range'
  exact (List.pairwise_map.mp hsorted).imp Nat.le_of_lt

theorem recordedAs_rowsFrom (fetched : ∀ t ∈ ts, ∃ i, t.before.fetch? = some i) (seq : Nat) :
    List.Forall₂ Transition.RecordedAs ts (rowsFrom seq ts) := by
  induction ts generalizing seq with
  | nil => exact .nil
  | cons t rest ih =>
    obtain ⟨⟨i, hi⟩, hrest⟩ := List.forall_mem_cons.mp fetched
    refine .cons ⟨rfl, ⟨i, hi, ?_⟩, rfl, rfl, rfl⟩ (ih hrest (seq + 1))
    simp only [Transition.row, StepRow.ofView, hi, Option.getD_some]

/-- An instruction that completes was fetched. -/
theorem Hooked.fetched_of_completes {t : Transition} {calls : List Event}
    (way : Hooked t.before t.after calls) (completes : t.completes = true) :
    ∃ i, t.before.fetch? = some i := by
  obtain ⟨m, events, m'⟩ := t
  obtain ⟨running, sound⟩ : m.isRunning = true ∧ m'.fault? = none := by
    simpa [Transition.completes] using completes
  cases way with
  | idle stopped =>
    rw [running] at stopped
    cases stopped
  | refused _ begun status steps =>
    rw [fault?, status] at sound
    cases sound
  | broken _ fetched => exact ⟨_, fetched⟩
  | executed _ fetched => exact ⟨_, fetched⟩
  | halted _ fetched => exact ⟨_, fetched⟩

theorem fetched_completes_run (run : Run mode (Machine.load size code) ts m) :
    ∀ t ∈ ts.filter Transition.completes, ∃ i, t.before.fetch? = some i := by
  intro t ht
  obtain ⟨hmem, completes⟩ := List.mem_filter.mp ht
  obtain ⟨earlier, later, hsplit⟩ := List.append_of_mem hmem
  obtain ⟨-, h⟩ := run.split hsplit
  exact h.hooked.fetched_of_completes completes

end Rows

/-! ### Runs read back -/

/-- What a store tells of the run `id`, which has led to `m` by the steps `ts`. -/
structure Stores.Reproduces (s : Stores) (store : Nat) (id : RunId) (ts : List Transition)
    (m : Machine) : Prop where
  /-- One row for each instruction that has executed, in order. -/
  rows : ∃ rows, s.loadRows store id = .ok rows ∧
    rows.map StepRow.seq = List.range rows.length ∧
    List.Forall₂ Transition.RecordedAs (ts.filter Transition.completes) rows ∧
    ((∀ t ∈ ts, t.breaks = false) → rows.length = m.steps) ∧
    ((∃ t ∈ ts, t.breaks = true) → rows.length + 1 = m.steps)
  run : ∃ row, s.loadRecord store id = .ok row ∧ row.memSize = m.arena.size ∧
    row.codeLength = m.code.size ∧ row.steps = m.steps ∧
    (row.outcome.name = "halted" ∧ row.outcome.faultKind = "" ↔ m.status = .halted) ∧
    ∀ f, m.status = .faulted f →
      row.outcome.name = "faulted" ∧ row.outcome.faultKind = f.kind.name

theorem outcome_stopped {m : Machine} (stopped : m.isRunning = false) :
    ((Outcome.ofFault m.fault?).name = "halted" ∧ (Outcome.ofFault m.fault?).faultKind = "" ↔
        m.status = .halted) ∧
      ∀ f, m.status = .faulted f → (Outcome.ofFault m.fault?).name = "faulted" ∧
        (Outcome.ofFault m.fault?).faultKind = f.kind.name := by
  cases hstatus : m.status with
  | running => simp [isRunning, hstatus] at stopped
  | halted => simp [fault?, Status.fault?, hstatus, Outcome.ofFault, Outcome.name, Outcome.faultKind]
  | faulted f => simp [fault?, Status.fault?, hstatus, Outcome.ofFault, Outcome.name, Outcome.faultKind]

section Reproduction

variable {mode : TraceMode} {size : Int64} {code : Array Instruction} {ts : List Transition}
  {m : Machine} {stores stores' : Stores} {store : Nat} {id : RunId} {a : Archive}

/-- A store that has the record of a run tells how it went. -/
theorem reproduces_of_withRecord (run : Run mode (Machine.load size code) ts m)
    (stopped : m.isRunning = false) (hopen : stores.isOpen store = true)
    (hstores : stores'.stores = stores.stores) (noRun : a.find? id = none)
    (noRows : a.rows id = [])
    (harchive : stores'.archive (stores.location store) =
      a.withRecord (m.runRow id) (rowsFrom 0 (ts.filter Transition.completes))) :
    stores'.Reproduces store id ts m := by
  obtain ⟨hrows, hrun⟩ := Stores.load_open hopen hstores id
  have hfound : (a.withRecord (m.runRow id) (rowsFrom 0 (ts.filter Transition.completes))).rows id =
      rowsFrom 0 (ts.filter Transition.completes) :=
    Archive.rows_withRecord noRows (pairwise_rowsFrom _ _)
  have hcount : (rowsFrom 0 (ts.filter Transition.completes)).length =
      ts.countP Transition.completes := by
    rw [length_rowsFrom, List.countP_eq_length_filter]
  obtain ⟨hall, hbroken⟩ := completes_run run
  refine ⟨⟨_, ?_, ?_, recordedAs_rowsFrom (fetched_completes_run run) 0, ?_, ?_⟩,
    m.runRow id, ?_, rfl, rfl, rfl, outcome_stopped stopped⟩
  · rw [hrows, harchive, hfound]
  · rw [map_seq_rowsFrom, length_rowsFrom, List.range_eq_range']
  · rw [hcount]
    exact hall
  · rw [hcount]
    exact hbroken
  · refine hrun _ ?_
    rw [harchive]
    exact Archive.find?_withRecord noRun

/-- A new record leaves all others as they were. -/
theorem load_of_withRecord (hstores : stores'.stores = stores.stores) {row : RunRow}
    {rows : List StepRow}
    (harchive : ∀ l, stores'.archive l = if l = stores.location store
      then (stores.archive (stores.location store)).withRecord row rows else stores.archive l)
    {other : Nat} {id' : RunId}
    (elsewhere : id' ≠ row.id ∨ stores.location other ≠ stores.location store) :
    stores'.loadRecord other id' = stores.loadRecord other id' ∧
      stores'.loadRows other id' = stores.loadRows other id' := by
  by_cases hlocation : stores.location other = stores.location store
  · have hid : id' ≠ row.id := elsewhere.resolve_right (not_not_intro hlocation)
    refine Stores.load_congr hstores ?_ ?_
    · rw [harchive, if_pos hlocation, hlocation, Archive.find?_withRecord_of_ne hid]
    · rw [harchive, if_pos hlocation, hlocation, Archive.rows_withRecord_of_ne hid]
  · refine Stores.load_congr hstores ?_ ?_ <;> rw [harchive, if_neg hlocation]

end Reproduction

/-- **A store reproduces the runs that it has recorded.** If a store has nothing about a run, and a
new recorder follows the run to its end without an error, the store tells how the run went, and
tells of all other runs what it told before. -/
theorem store_reproduces_run {size : Int64} {code : Array Instruction} {s s' : Session}
    {calls : List Call} (loaded : s.machine = Machine.load size code)
    (attached : s.keepsHooks = true) (fresh : s.hooks = #[]) (served : s.serve? calls = some s')
    (stopped : s'.machine.isRunning = false) {stores : Stores} (reached : stores.Reachable)
    {store : Nat} {id : RunId} (noRun : stores.loadRecord store id = .error (.notFound id))
    (noRows : stores.loadRows store id = .ok [])
    (noError : (stores.recorded store id s'.hooks.toList).recordError?
      (stores.addRecorder store).2 = none) :
    ∃ ts, Run s.mode (Machine.load size code) ts s'.machine ∧
      (stores.recorded store id s'.hooks.toList).Reproduces store id ts s'.machine ∧
      ∀ other id', id' ≠ id ∨ stores.location other ≠ stores.location store →
        (stores.recorded store id s'.hooks.toList).loadRecord other id' =
          stores.loadRecord other id' ∧
        (stores.recorded store id s'.hooks.toList).loadRows other id' =
          stores.loadRows other id' := by
  obtain ⟨ts, run, hhooks⟩ := Session.run_of_serve? loaded attached fresh served
  obtain ⟨hopen, habsent⟩ := Stores.loadRecord_eq_notFound noRun
  have hempty : (stores.archive (stores.location store)).rows id = [] := by
    rw [Stores.loadRows, if_pos hopen] at noRows
    exact Except.ok.inj noRows
  obtain ⟨policy, a, r, hfold, hstores, herror, harchive⟩ :=
    Stores.recorded_spec (reached.lodged.admits_location hopen) id s'.hooks.toList
  have hrecorded : AllOrNothing policy (stores.archive (stores.location store)) {}
      (draftScript id (rowsFrom 0 (ts.filter Transition.completes)) s'.machine ++ [.commit id])
      ((stores.archive (stores.location store)).withRecord (s'.machine.runRow id)
        (rowsFrom 0 (ts.filter Transition.completes))) (a, r) := by
    rw [← hfold, hhooks]
    exact allOrNothing_run run stopped rfl
  have hwhole : a = (stores.archive (stores.location store)).withRecord (s'.machine.runRow id)
      (rowsFrom 0 (ts.filter Transition.completes)) := by
    have hnone : r.error = none := herror.symm.trans noError
    cases hrecorded with
    | complete => rfl
    | nothing _ _ error =>
      rw [hnone] at error
      cases error
    | useless failed => cases failed
  subst hwhole
  refine ⟨ts, run, ?_, fun other id' elsewhere => load_of_withRecord hstores harchive elsewhere⟩
  refine reproduces_of_withRecord run stopped hopen hstores habsent hempty ?_
  rw [harchive, if_pos rfl]

/-- The stores on an empty tree, of which the first is in memory. -/
def oneStore : Stores :=
  (Stores.openStore {} ":memory:").1

/-- A run whose second instruction faults, recorded in memory. -/
theorem store_reproduces_run_broken :
    ∃ s', Session.serve? { machine := Machine.load 4 printAbsent } [.run 5] = some s' ∧
      s'.machine.isRunning = false ∧
      (oneStore.recorded 0 "r" s'.hooks.toList).recordError? (oneStore.addRecorder 0).2 = none ∧
      ∃ ts, Run .off (Machine.load 4 printAbsent) ts s'.machine ∧
        (oneStore.recorded 0 "r" s'.hooks.toList).Reproduces 0 "r" ts s'.machine ∧
        ∀ other id', id' ≠ "r" ∨ oneStore.location other ≠ oneStore.location 0 →
          (oneStore.recorded 0 "r" s'.hooks.toList).loadRecord other id' =
            oneStore.loadRecord other id' ∧
          (oneStore.recorded 0 "r" s'.hooks.toList).loadRows other id' =
            oneStore.loadRows other id' := by
  have hserved : (Session.serve? { machine := Machine.load 4 printAbsent } [.run 5]).map
      (fun s => (s.machine.isRunning,
        (oneStore.recorded 0 "r" s.hooks.toList).recordError? (oneStore.addRecorder 0).2)) =
      some (false, none) := by decide +kernel
  obtain ⟨s', served, hend⟩ := Option.map_eq_some_iff.mp hserved
  obtain ⟨stopped, noError⟩ := Prod.mk.inj hend
  have noRun : oneStore.loadRecord 0 "r" = .error (.notFound "r") := by decide +kernel
  have noRows : oneStore.loadRows 0 "r" = .ok [] := by decide +kernel
  have reached : oneStore.Reachable := .opened (.start {}) ":memory:"
  exact ⟨s', served, stopped, noError,
    store_reproduces_run rfl rfl rfl served stopped reached noRun noRows noError⟩

end RegisterMachine
