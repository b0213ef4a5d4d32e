import Mathlib.Data.List.Induction
import Mathlib.Order.Bounds.Defs
import RegisterMachine.Proofs.Machine.Allocation

/-!
# The arena and its history

The cells of an arena say nothing beyond the calls that were made on it. For each address two
calls count: the last write or release decides whether the cell can be read, and the last write
decides what is in it, also when the cell has been released since. Everything an arena answers can
therefore be told from the sequence of calls alone, without a cell.
-/

set_option autoImplicit false

namespace RegisterMachine

/-! ### Calls -/

/-- What a caller can ask of an arena. -/
inductive ArenaCall where
  | read (i : Int64)
  | write (i : Int64) (w : Word)
  | free (i : Int64)
  | firstFree
  | cell (i : Int64)
  deriving DecidableEq, Repr, Inhabited

/-- What a call returns if it is not refused. -/
inductive ArenaReply where
  | number (n : Int64)
  | done
  | index (k : Nat)
  | cell (c : Cell)
  deriving DecidableEq, Repr, Inhabited

namespace Arena

/-- The answer to a call and the arena behind it. -/
def answer (a : Arena) : ArenaCall → Except ArenaError ArenaReply × Arena
  | .read i => ((a.read i).map .number, a)
  | .write i w =>
    match a.write i w with
    | .ok a' => (.ok .done, a')
    | .error e => (.error e, a)
  | .free i =>
    match a.free i with
    | .ok a' => (.ok .done, a')
    | .error e => (.error e, a)
  | .firstFree => (a.firstFree.map .index, a)
  | .cell i => ((a.cell i).map .cell, a)

/-- The arena behind a sequence of calls. -/
def afterCalls (a : Arena) (calls : List ArenaCall) : Arena :=
  calls.foldl (fun a call => (a.answer call).2) a

end Arena

/-! ### Histories -/

namespace ArenaCall

/-- Whether the call writes or releases the cell at `i`. -/
def touches (i : Int64) : ArenaCall → Bool
  | .write j _ => j == i
  | .free j => j == i
  | _ => false

/-- The word that the call writes to `i`. -/
def wordFor? (i : Int64) : ArenaCall → Option Word
  | .write j w => if j = i then some w else none
  | _ => none

/-- Whether the call only asks. -/
def isQuery : ArenaCall → Bool
  | .write _ _ => false
  | .free _ => false
  | _ => true

end ArenaCall

/-- The last write or release of `i`. -/
def lastTouch? (calls : List ArenaCall) (i : Int64) : Option ArenaCall :=
  calls.reverse.find? (·.touches i)

/-- The word of the last write to `i`, released or not; an absent one if there was no write. -/
def lastWord (calls : List ArenaCall) (i : Int64) : Word :=
  (calls.reverse.findSome? (·.wordFor? i)).getD none

/-- The last write or release of `i` is a write. -/
def LastWritten (calls : List ArenaCall) (i : Int64) : Prop :=
  ∃ w, lastTouch? calls i = some (.write i w)

section History

variable (calls : List ArenaCall) (call : ArenaCall) (i : Int64)

theorem lastTouch?_snoc :
    lastTouch? (calls ++ [call]) i =
      if call.touches i then some call else lastTouch? calls i := by
  rw [lastTouch?, List.reverse_append, List.reverse_singleton, List.singleton_append,
    List.find?_cons]
  cases call.touches i <;> rfl

theorem lastWord_snoc :
    lastWord (calls ++ [call]) i =
      match call.wordFor? i with
      | some w => w
      | none => lastWord calls i := by
  rw [lastWord, List.reverse_append, List.reverse_singleton, List.singleton_append,
    List.findSome?_cons]
  cases call.wordFor? i <;> rfl

/-- What the history makes of a cell. -/
structure Remembered (c : Cell) : Prop where
  value : c.value = lastWord calls i
  live : c.live = true ↔ LastWritten calls i

/-- A cell that can be read holds the word of the write that counts. -/
theorem lastTouch?_eq_write {w : Word} (h : lastTouch? calls i = some (.write i w)) :
    lastWord calls i = w := by
  induction calls using List.reverseRecOn with
  | nil => cases h
  | append_singleton calls call ih =>
    rw [lastTouch?_snoc] at h
    by_cases htouch : call.touches i = true
    · rw [if_pos htouch] at h
      obtain rfl := Option.some.inj h
      rw [lastWord_snoc]
      simp only [ArenaCall.wordFor?, if_pos]
    · rw [if_neg htouch] at h
      have hword : call.wordFor? i = none := by
        cases call with
        | write j v =>
          have hne : j ≠ i := by simpa [ArenaCall.touches] using htouch
          exact if_neg hne
        | read | free | firstFree | cell => rfl
      rw [lastWord_snoc, hword]
      exact ih h

end History

/-! ### One call -/

namespace Arena

variable {a : Arena} {call : ArenaCall} {i : Int64}

theorem cell?_of_not_contains (h : ¬ a.contains i = true) : a.cell? i = none := by
  rw [← isSome_cell?] at h
  exact Option.not_isSome_iff_eq_none.mp h

theorem answer_write (a : Arena) (i : Int64) (w : Word) :
    a.answer (.write i w) =
      if a.contains i then (.ok .done, a.put i w) else (.error (a.outside i), a) := by
  by_cases hin : a.contains i = true
  · simp only [answer, write, if_pos hin]
  · simp only [answer, write, if_neg hin]

theorem answer_free (a : Arena) (i : Int64) :
    a.answer (.free i) =
      if a.contains i then (.ok .done, a.release i) else (.error (a.outside i), a) := by
  by_cases hin : a.contains i = true
  · simp only [answer, free, if_pos hin]
  · simp only [answer, free, if_neg hin]

theorem size_answer (a : Arena) (call : ArenaCall) : (a.answer call).2.size = a.size := by
  cases call with
  | write i w =>
    rw [answer_write]
    split
    · exact size_put a i w
    · rfl
  | free i =>
    rw [answer_free]
    split
    · exact size_release a i
    · rfl
  | read | firstFree | cell => rfl

/-- A write replaces its own cell, if there is one. -/
theorem cell?_answer_write (a : Arena) (j i : Int64) (w : Word) :
    (a.answer (.write j w)).2.cell? i =
      (a.cell? i).map fun c => if j = i then { value := w, live := true } else c := by
  rw [answer_write]
  by_cases hin : a.contains j = true
  · rw [if_pos hin, cell?_put hin]
    by_cases he : i = j
    · subst he
      obtain ⟨c, hc⟩ := Option.isSome_iff_exists.mp (isSome_cell?.mpr hin)
      rw [if_pos rfl, hc, Option.map_some, if_pos rfl]
    · simp only [if_neg he, if_neg (Ne.symm he), Option.map_id']
  · rw [if_neg hin]
    by_cases he : j = i
    · rw [← he, cell?_of_not_contains hin]
      rfl
    · simp only [if_neg he, Option.map_id']

/-- A release ends the life of its own cell, if there is one. -/
theorem cell?_answer_free (a : Arena) (j i : Int64) :
    (a.answer (.free j)).2.cell? i =
      (a.cell? i).map fun c => if j = i then { c with live := false } else c := by
  rw [answer_free]
  by_cases hin : a.contains j = true
  · rw [if_pos hin, cell?_release hin]
    by_cases he : i = j
    · subst he
      simp only [if_pos]
    · simp only [if_neg he, if_neg (Ne.symm he), Option.map_id']
  · rw [if_neg hin]
    by_cases he : j = i
    · rw [← he, cell?_of_not_contains hin]
      rfl
    · simp only [if_neg he, Option.map_id']

/-- **Each call is remembered.** -/
theorem remembered_answer {calls : List ArenaCall} {c : Cell}
    (h : ∀ {d}, a.cell? i = some d → Remembered calls i d)
    (hc : (a.answer call).2.cell? i = some c) : Remembered (calls ++ [call]) i c := by
  cases call with
  | write j w =>
    rw [cell?_answer_write] at hc
    obtain ⟨d, hd, rfl⟩ := Option.map_eq_some_iff.mp hc
    obtain ⟨value, live⟩ := h hd
    by_cases he : j = i
    · subst he
      constructor
      · simp only [lastWord_snoc, ArenaCall.wordFor?, if_pos]
      · simp [LastWritten, lastTouch?_snoc, ArenaCall.touches]
    · have htouch : (ArenaCall.write j w).touches i = false := beq_false_of_ne he
      constructor
      · simpa only [if_neg he, lastWord_snoc, ArenaCall.wordFor?] using value
      · simpa only [if_neg he, LastWritten, lastTouch?_snoc, htouch, Bool.false_eq_true,
          if_false] using live
  | free j =>
    rw [cell?_answer_free] at hc
    obtain ⟨d, hd, rfl⟩ := Option.map_eq_some_iff.mp hc
    obtain ⟨value, live⟩ := h hd
    by_cases he : j = i
    · subst he
      constructor
      · simpa only [if_pos, lastWord_snoc, ArenaCall.wordFor?] using value
      · simp [LastWritten, lastTouch?_snoc, ArenaCall.touches]
    · have htouch : (ArenaCall.free j).touches i = false := beq_false_of_ne he
      constructor
      · simpa only [if_neg he, lastWord_snoc, ArenaCall.wordFor?] using value
      · simpa only [if_neg he, LastWritten, lastTouch?_snoc, htouch, Bool.false_eq_true,
          if_false] using live
  | read | firstFree | cell =>
    obtain ⟨value, live⟩ := h hc
    constructor
    · simpa only [lastWord_snoc, ArenaCall.wordFor?] using value
    · simpa only [LastWritten, lastTouch?_snoc, ArenaCall.touches, Bool.false_eq_true,
        if_false] using live

/-! ### Sequences of calls -/

theorem afterCalls_snoc (a : Arena) (calls : List ArenaCall) (call : ArenaCall) :
    a.afterCalls (calls ++ [call]) = ((a.afterCalls calls).answer call).2 := by
  rw [afterCalls, List.foldl_append]
  rfl

theorem size_afterCalls (a : Arena) (calls : List ArenaCall) :
    (a.afterCalls calls).size = a.size := by
  induction calls using List.reverseRecOn with
  | nil => rfl
  | append_singleton calls call ih => rw [afterCalls_snoc, size_answer, ih]

/-- **Every cell of an arena is what its history makes of it.** -/
theorem remembered_afterCalls (size : Int64) (calls : List ArenaCall) {c : Cell}
    (hc : ((ofSize size).afterCalls calls).cell? i = some c) : Remembered calls i c := by
  induction calls using List.reverseRecOn generalizing c with
  | nil =>
    obtain rfl := cell?_ofSize hc
    exact ⟨rfl, by simp [LastWritten, lastTouch?]⟩
  | append_singleton calls call ih =>
    rw [afterCalls_snoc] at hc
    exact remembered_answer ih hc

end Arena

/-! ### What an arena answers -/

/-- The arena `a` answers as the calls `calls`, made on a new arena of `size` cells, say. -/
structure Recalls (size : Int64) (calls : List ArenaCall) (a : Arena) : Prop where
  length : (a.size : Int) = max size.toInt 0
  read : ∀ i n : Int64, a.read i = .ok n ↔
    (0 ≤ i.toInt ∧ i.toInt < a.size) ∧ lastTouch? calls i = some (.write i (some n))
  readOutside : ∀ i : Int64, (∃ e, a.read i = .error e ∧ e.kind = .outOfRange) ↔
    ¬ (0 ≤ i.toInt ∧ i.toInt < a.size)
  /-- A cell inside the arena that was never written, was released, or was written without a
  number. -/
  readUnwritten : ∀ i : Int64, (∃ e, a.read i = .error e ∧ e.kind = .uninitializedRead) ↔
    (0 ≤ i.toInt ∧ i.toInt < a.size) ∧ ∀ n, lastTouch? calls i ≠ some (.write i (some n))
  /-- A cell keeps the word of its last write, released or not. -/
  cell : ∀ i : Int64, 0 ≤ i.toInt ∧ i.toInt < a.size →
    ∃ c, a.cell i = .ok c ∧ c.value = lastWord calls i ∧ (c.live = true ↔ LastWritten calls i)
  cellOutside : ∀ i : Int64, a.cell i = .error (a.outside i) ↔
    ¬ (0 ≤ i.toInt ∧ i.toInt < a.size)
  firstFree : ∀ k : Nat, a.firstFree = .ok k ↔
    IsLeast {j : Nat | j < a.size ∧ ¬ LastWritten calls (.ofNat j)} k
  full : (∃ e, a.firstFree = .error e) ↔ ∀ j < a.size, LastWritten calls (.ofNat j)
  /-- Writes and releases are refused outside the arena only. -/
  touch : ∀ (call : ArenaCall) (i : Int64), call.touches i = true →
    ((a.answer call).1 = .ok .done ↔ 0 ≤ i.toInt ∧ i.toInt < a.size)
  refused : ∀ (call : ArenaCall) (e : ArenaError),
    (a.answer call).1 = .error e → (a.answer call).2 = a
  query : ∀ call : ArenaCall, call.isQuery = true → (a.answer call).2 = a

namespace Arena

variable {a : Arena} {i : Int64}

/-- The three ways in which a read goes. -/
theorem read_cases (a : Arena) (i : Int64) :
    (∃ n, a.read i = .ok n ∧ a.contains i = true) ∨
      a.read i = .error (a.outside i) ∧ ¬ a.contains i = true ∨
      a.read i = .error (a.unwritten i) ∧ a.contains i = true := by
  cases hc : a.cell? i with
  | none =>
    have hout : ¬ a.contains i = true := by
      rw [← isSome_cell?, hc]
      exact Bool.false_ne_true
    exact .inr (.inl ⟨by simp only [read, hc], hout⟩)
  | some c =>
    have hin := contains_of_cell? hc
    obtain ⟨w, l⟩ := c
    cases w with
    | none => exact .inr (.inr ⟨by simp only [read, hc], hin⟩)
    | some n =>
      cases l with
      | false => exact .inr (.inr ⟨by simp only [read, hc], hin⟩)
      | true => exact .inl ⟨n, by simp only [read, hc], hin⟩

theorem read_outside_iff :
    (∃ e, a.read i = .error e ∧ e.kind = .outOfRange) ↔ ¬ a.contains i = true := by
  rcases a.read_cases i with ⟨n, hn, hin⟩ | ⟨he, hout⟩ | ⟨he, hin⟩
  · simp [hn, hin]
  · simp [he, hout, outside]
  · simp [he, hin, unwritten]

theorem read_unwritten_iff :
    (∃ e, a.read i = .error e ∧ e.kind = .uninitializedRead) ↔
      a.contains i = true ∧ ∀ n, a.read i ≠ .ok n := by
  rcases a.read_cases i with ⟨n, hn, hin⟩ | ⟨he, hout⟩ | ⟨he, hin⟩
  · simp [hn]
  · simp [he, hout, outside]
  · simp [he, hin, unwritten]

theorem cell_outside_iff : a.cell i = .error (a.outside i) ↔ ¬ a.contains i = true := by
  rw [← isSome_cell?, cell]
  cases a.cell? i <;> simp

theorem answer_refused {call : ArenaCall} {e : ArenaError} (h : (a.answer call).1 = .error e) :
    (a.answer call).2 = a := by
  cases call with
  | write i w =>
    rw [answer_write] at h ⊢
    split
    · next hin =>
      rw [if_pos hin] at h
      cases h
    · rfl
  | free i =>
    rw [answer_free] at h ⊢
    split
    · next hin =>
      rw [if_pos hin] at h
      cases h
    · rfl
  | read | firstFree | cell => rfl

theorem answer_touching {call : ArenaCall} (h : call.touches i = true) :
    (a.answer call).1 = .ok .done ↔ a.contains i = true := by
  cases call with
  | write j w =>
    obtain rfl : j = i := eq_of_beq h
    rw [answer_write]
    split <;> simp_all
  | free j =>
    obtain rfl : j = i := eq_of_beq h
    rw [answer_free]
    split <;> simp_all
  | read | firstFree | cell => cases h

end Arena

section Recalls

variable (size : Int64) (calls : List ArenaCall)

theorem size_ofSize_afterCalls :
    (((Arena.ofSize size).afterCalls calls).size : Int) = max size.toInt 0 := by
  rw [Arena.size_afterCalls, Arena.size_ofSize, Int64.toNatClampNeg]
  omega

theorem read_afterCalls {i n : Int64} :
    ((Arena.ofSize size).afterCalls calls).read i = .ok n ↔
      ((Arena.ofSize size).afterCalls calls).contains i = true ∧
        lastTouch? calls i = some (.write i (some n)) := by
  rw [Arena.read_eq_ok]
  constructor
  · intro hc
    obtain ⟨value, live⟩ := Arena.remembered_afterCalls size calls hc
    obtain ⟨w, hw⟩ := live.mp rfl
    obtain rfl : some n = w := value.trans (lastTouch?_eq_write calls i hw)
    exact ⟨Arena.contains_of_cell? hc, hw⟩
  · intro h
    obtain ⟨hin, hlast⟩ := h
    obtain ⟨⟨v, l⟩, hc⟩ := Option.isSome_iff_exists.mp (Arena.isSome_cell?.mpr hin)
    obtain ⟨value, live⟩ := Arena.remembered_afterCalls size calls hc
    obtain rfl : v = some n := value.trans (lastTouch?_eq_write calls i hlast)
    obtain rfl : l = true := live.mpr ⟨_, hlast⟩
    exact hc

/-- The free cells are those that were not written last. -/
theorem free_ofNat_iff {j : Nat} (hj : j < ((Arena.ofSize size).afterCalls calls).size) :
    ((Arena.ofSize size).afterCalls calls).Free (.ofNat j) ↔
      ¬ LastWritten calls (.ofNat j) := by
  have hlimit := size.toInt_lt
  have hsize := size_ofSize_afterCalls size calls
  have hint : (Int64.ofNat j).toInt = j := Int64.toInt_ofNat_of_lt (by omega)
  have hin : ((Arena.ofSize size).afterCalls calls).contains (.ofNat j) :=
    Arena.contains_iff.mpr (by omega)
  obtain ⟨c, hc⟩ := Option.isSome_iff_exists.mp (Arena.isSome_cell?.mpr hin)
  rw [← (Arena.remembered_afterCalls size calls hc).live, Bool.not_eq_true]
  constructor
  · intro hfree
    obtain ⟨d, hd, hdead⟩ := hfree
    obtain rfl := Option.some.inj (hc.symm.trans hd)
    exact hdead
  · intro hdead
    exact ⟨c, hc, hdead⟩

/-- The search for a free cell finds the lowest cell that was not written last. -/
theorem firstFree_afterCalls {k : Nat} :
    ((Arena.ofSize size).afterCalls calls).firstFree = .ok k ↔
      IsLeast {j : Nat | j < ((Arena.ofSize size).afterCalls calls).size ∧
        ¬ LastWritten calls (.ofNat j)} k := by
  have hlimit := size.toInt_lt
  have hsize := size_ofSize_afterCalls size calls
  have hvacant := fun j => free_ofNat_iff size calls (j := j)
  generalize (Arena.ofSize size).afterCalls calls = a at hsize hvacant ⊢
  have hint : ∀ j < a.size, (Int64.ofNat j).toInt = j := fun j hj =>
    Int64.toInt_ofNat_of_lt (by omega)
  rw [Arena.firstFree_eq_ok]
  constructor
  · intro hk
    have hlt := Arena.firstFree?_lt hk
    refine ⟨⟨hlt, (hvacant k hlt).mp (Arena.firstFree?_eq_some (by omega) hk)⟩, fun j hj => ?_⟩
    have hle := Arena.firstFree?_le hk ((hvacant j hj.1).mpr hj.2)
    rw [hint j hj.1] at hle
    omega
  · intro h
    obtain ⟨⟨hlt, hlast⟩, hleast⟩ := h
    have hfound := (hvacant k hlt).mpr hlast
    cases hsearch : a.firstFree? with
    | none => exact absurd hfound (Arena.not_free_of_firstFree?_eq_none hsearch)
    | some j =>
      have hj := Arena.firstFree?_lt hsearch
      have hle := Arena.firstFree?_le hsearch hfound
      have hge : k ≤ j :=
        hleast ⟨hj, (hvacant j hj).mp (Arena.firstFree?_eq_some (by omega) hsearch)⟩
      rw [hint k hlt] at hle
      obtain rfl : j = k := by omega
      rfl

theorem full_afterCalls :
    (∃ e, ((Arena.ofSize size).afterCalls calls).firstFree = .error e) ↔
      ∀ j < ((Arena.ofSize size).afterCalls calls).size, LastWritten calls (.ofNat j) := by
  constructor
  · intro hfull j hj
    obtain ⟨e, he⟩ := hfull
    by_contra hlast
    have hfree := (free_ofNat_iff size calls hj).mpr hlast
    cases hsearch : ((Arena.ofSize size).afterCalls calls).firstFree? with
    | none => exact Arena.not_free_of_firstFree?_eq_none hsearch hfree
    | some k =>
      rw [Arena.firstFree_eq_ok.mpr hsearch] at he
      cases he
  · intro hall
    cases hsearch : ((Arena.ofSize size).afterCalls calls).firstFree with
    | error e => exact ⟨e, rfl⟩
    | ok k =>
      obtain ⟨⟨hlt, hlast⟩, -⟩ := (firstFree_afterCalls size calls).mp hsearch
      exact absurd (hall k hlt) hlast

end Recalls

/-- **An arena refines its history.** Whatever is asked of a new arena, in whatever order, its
answers are those that the sequence of calls so far determines; refused calls and queries leave it
as it is. -/
theorem arena_recalls_history (size : Int64) (calls : List ArenaCall) :
    Recalls size calls ((Arena.ofSize size).afterCalls calls) where
  length := size_ofSize_afterCalls size calls
  read i n := by
    rw [← Arena.contains_iff]
    exact read_afterCalls size calls
  readOutside i := by
    rw [← Arena.contains_iff]
    exact Arena.read_outside_iff
  readUnwritten i := by
    rw [← Arena.contains_iff, Arena.read_unwritten_iff]
    refine and_congr_right fun hin => forall_congr' fun n => not_congr ?_
    rw [read_afterCalls]
    exact and_iff_right hin
  cell i hin := by
    obtain ⟨c, hc⟩ := Option.isSome_iff_exists.mp
      (Arena.isSome_cell?.mpr (Arena.contains_iff.mpr hin))
    obtain ⟨value, live⟩ := Arena.remembered_afterCalls size calls hc
    exact ⟨c, by rw [Arena.cell, hc], value, live⟩
  cellOutside i := by
    rw [← Arena.contains_iff]
    exact Arena.cell_outside_iff
  firstFree k := firstFree_afterCalls size calls
  full := full_afterCalls size calls
  touch call i htouch := by
    rw [← Arena.contains_iff]
    exact Arena.answer_touching htouch
  refused call e := Arena.answer_refused
  query call hquery := by
    cases call with
    | write | free => cases hquery
    | read | firstFree | cell => rfl

end RegisterMachine
