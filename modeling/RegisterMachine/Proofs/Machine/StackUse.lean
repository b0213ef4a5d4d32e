import Mathlib.Logic.Relation
import RegisterMachine.Proofs.Assembly.Roundtrip
import RegisterMachine.Proofs.Assembly.Targets
import RegisterMachine.Proofs.Machine.Atomicity
import RegisterMachine.Proofs.Machine.Integrity
import RegisterMachine.Proofs.Machine.Resumption
import RegisterMachine.Proofs.Machine.Width

/-!
# The stack in use

A program pushes some numbers and then takes them off again, printing each. It needs two cells more
than there are numbers: the check before a fetch wants a cell between the heap cursor, which is at
the bottom, and the stack top. With fewer cells the program stops while it is still pushing, or
right behind its last push. Since pushes stay above that cell, the bottom of the arena is never
written.
-/

set_option autoImplicit false

namespace RegisterMachine

open Machine Checks
open Decimal (FitsInt32)
open Relation (ReflTransGen)

/-! ### The program -/

/-- Loads the number and pushes it. -/
def pushing (v : Int32) : List Instruction :=
  [.ofArgs .li ["$t1", Decimal.ofInt v.toInt] 0, .ofArgs .push ["$t1"] 0]

/-- Prints the number at the stack top and takes it off. -/
def popping : List Instruction :=
  [.memory .lw "$a0" 0 "$sp", .ofArgs .print ["$a0"] 0, .ofArgs .pop [] 0]

/-- Pushes the numbers in order, then prints and pops as many. -/
def stackProgram (vs : List Int32) : List Instruction :=
  vs.flatMap pushing ++ ((List.replicate vs.length popping).flatten ++ [.ofArgs .halt [] 0])

/-- The numbers in order, one a line. -/
def numberLines (vs : List Int32) : String :=
  vs.foldr (fun v text => Decimal.ofInt v.toInt ++ "\n" ++ text) ""

theorem readInt32?_toInt (v : Int32) :
    Decimal.readInt32? (Decimal.ofInt v.toInt) = some (widen v) := by
  rw [Decimal.readInt32?_ofInt (Decimal.fitsInt32_toInt v), Option.some.injEq, ← Int64.toInt_inj,
    Decimal.toInt_ofInt (Decimal.fitsInt32_toInt v), widen, Int32.toInt_toInt64]

theorem forall_mem_stackProgram {P : Instruction → Prop} (push : ∀ v, ∀ i ∈ pushing v, P i)
    (pop : ∀ i ∈ popping, P i) (halt : P (.ofArgs .halt [] 0)) (vs : List Int32) :
    ∀ i ∈ stackProgram vs, P i := by
  intro i h
  simp only [stackProgram, List.mem_append, List.mem_flatMap, List.mem_flatten,
    List.mem_replicate, List.mem_singleton] at h
  rcases h with ⟨v, -, h⟩ | ⟨_, ⟨-, rfl⟩, h⟩ | rfl
  · exact push v i h
  · exact pop i h
  · exact halt

theorem canonical_stackProgram (vs : List Int32) :
    ∀ i ∈ stackProgram vs, Assembly.Canonical i := by
  refine forall_mem_stackProgram (fun v => ?_) ?_ ?_ vs
  · simp only [pushing, List.forall_mem_cons]
    exact ⟨.of_slots rfl ⟨.t1, rfl⟩ ⟨v.toInt, Decimal.fitsInt32_toInt v, rfl⟩ rfl rfl,
      .of_slots rfl ⟨.t1, rfl⟩ rfl rfl rfl, List.forall_mem_nil _⟩
  · simp only [popping, List.forall_mem_cons]
    exact ⟨.of_slots rfl ⟨.a0, rfl⟩ ⟨.sp, rfl⟩ rfl (by decide),
      .of_slots rfl ⟨.a0, rfl⟩ rfl rfl rfl, .of_slots rfl rfl rfl rfl rfl, List.forall_mem_nil _⟩
  · exact .of_slots rfl rfl rfl rfl rfl

/-- Printed and assembled, the program is the same unless it has too many lines. -/
theorem assemble_stackProgram (vs : List Int32) :
    Assembly.assemble (Assembly.format (stackProgram vs)) = .ok (stackProgram vs) ↔
      (stackProgram vs).length < Assembly.repetitionLimit :=
  ⟨Assembly.length_lt_of_assemble,
    (Assembly.assemble_format_of_canonical (canonical_stackProgram vs)).1⟩

/-! ### The bottom cell -/

/-- The step has executed an instruction that concerns the cell at `a`. -/
def Transition.Touches (t : Transition) (a : Int64) : Prop :=
  ∃ i change, t.Executes i ∧ t.before.plan i = .ok change ∧ change.address? = some a

/-- The program leaves the heap cursor alone, and of the instructions that concern a cell it has only
pushes. -/
def PushesOnly (code : Array Instruction) : Prop :=
  ∀ i ∈ code, i.op ≠ .sw ∧ i.op ≠ .del ∧ i.destination? ≠ some .hp

section Bottom

variable {mode : TraceMode} {size : Int64} {code : Array Instruction} {ts : List Transition}
  {m : Machine}

/-- A heap cursor at the bottom keeps pushes away from the lowest cell. -/
theorem address?_ne_zero {i : Instruction} {change : Change} (inv : HeapInvariant m)
    (cursor : m.registers.hp = some 0) (gap : m.checkGap = .ok ())
    (rule : Decides m.registers m.arena i change) (store : i.op ≠ .sw) (delete : i.op ≠ .del) :
    change.address? ≠ some 0 := by
  cases rule with
  | @push r sp op source top room =>
    intro ha
    have hzero : sp - 1 = 0 := Option.some.inj ha
    obtain ⟨hp, sp', cursor', top', hlt⟩ := checkGap_eq_ok.mp gap
    obtain rfl := Option.some.inj (cursor.symm.trans cursor')
    obtain rfl := Option.some.inj (top.symm.trans top')
    have hheap := inv.heap_bounds
    have hsize := inv.size_lt
    have hmax := Word.toInt_max 0 m.heap
    have hbottom : (0 : Int64).toInt = 0 := rfl
    rw [Word.toInt_add_one (by omega)] at hlt
    have hlowered : (sp - 1).toInt = sp.toInt - 1 := Word.toInt_sub_one (by omega)
    rw [hzero] at hlowered
    omega
  | allocate op => exact absurd op store
  | store op => exact absurd op store
  | release op => exact absurd op delete
  | _ => nofun

theorem hp_run (pushes : PushesOnly code) (run : Run mode (Machine.load size code) ts m) :
    m.registers.hp = some 0 := by
  refine run.invariant (P := fun _ m => m.registers.hp = some 0) rfl ?_
  intro ts m m' events earlier cursor h
  cases h with
  | idle => exact cursor
  | refused _ _ next | lost _ _ _ next | faulted _ _ _ _ next => rw [next]; exact cursor
  | overrun _ _ _ _ next => rw [next]; exact cursor
  | @executed i change after running gap fetched plan next =>
    have hcode : m.code = code := earlier.code_eq
    obtain ⟨-, -, keeps⟩ := pushes i (hcode ▸ mem_of_fetch? fetched)
    rw [← (decides_of_plan plan).destination?_eq] at keeps
    rw [settled_registers, next]
    exact (get_registers_apply m.started.advance change keeps).trans cursor

/-- **No step concerns the bottom cell** of a program that only pushes. -/
theorem bottom_untouched (pushes : PushesOnly code)
    (run : Run mode (Machine.load size code) ts m) :
    (∀ t ∈ ts, ¬ t.Touches 0) ∧ m.arena.cell? 0 = (Arena.ofSize size).cell? 0 := by
  refine run.invariant (P := fun ts m => (∀ t ∈ ts, ¬ t.Touches 0) ∧
    m.arena.cell? 0 = (Arena.ofSize size).cell? 0) ⟨List.forall_mem_nil _, rfl⟩ ?_
  intro ts m m' events earlier ⟨silent, same⟩ h
  rcases h.frame_or_executes with ⟨harena, -, -, idle⟩ | ⟨i, change, executes, gap, plan, next⟩
  · refine ⟨List.forall_mem_append.mpr ⟨silent, List.forall_mem_singleton.mpr ?_⟩, ?_⟩
    · rintro ⟨i, change, executes, -⟩
      exact idle i executes
    · rw [harena, same]
  · have hcode : m.code = code := earlier.code_eq
    obtain ⟨-, -, -, fetched, -⟩ := h.of_executes executes
    obtain ⟨store, delete, -⟩ := pushes i (hcode ▸ mem_of_fetch? fetched)
    have hne := address?_ne_zero (heapInvariant_run earlier) (hp_run pushes earlier) gap
      (decides_of_plan plan) store delete
    refine ⟨List.forall_mem_append.mpr ⟨silent, List.forall_mem_singleton.mpr ?_⟩, ?_⟩
    · rintro ⟨j, other, executes', plan', ha⟩
      obtain rfl := h.executes_unique executes executes'
      obtain rfl := Except.ok.inj (plan.symm.trans plan')
      exact hne ha
    · rw [next, cell?_next_of_ne (heapInvariant_run earlier) plan hne, same]

end Bottom

theorem pushesOnly_stackProgram (vs : List Int32) : PushesOnly (stackProgram vs).toArray := by
  intro i hi
  refine forall_mem_stackProgram (P := fun i => i.op ≠ .sw ∧ i.op ≠ .del ∧
    i.destination? ≠ some .hp) (fun v => ?_) ?_ (by decide) vs i (List.mem_toArray.mp hi)
  · have hload : (Instruction.ofArgs .li ["$t1", Decimal.ofInt v.toInt] 0).destination? =
        some .t1 := Register.ofToken?_name .t1
    simp only [pushing, List.forall_mem_cons, hload]
    exact ⟨⟨nofun, nofun, nofun⟩, by decide, List.forall_mem_nil _⟩
  · simp only [popping, List.forall_mem_cons]
    exact ⟨by decide, by decide, by decide, List.forall_mem_nil _⟩

/-! ### Straight-line execution -/

/-- The machine runs and has these instructions before it. -/
structure Machine.Before (m : Machine) (later : List Instruction) : Prop where
  status : m.status = .running
  place : ∃ earlier, m.code.toList = earlier ++ later ∧ m.pc.toInt = earlier.length
  short : m.code.size < 2 ^ 63

namespace Machine.Before

variable {m : Machine} {i : Instruction} {later : List Instruction}

theorem fetched (h : m.Before (i :: later)) : m.fetch? = some i := by
  obtain ⟨earlier, hcode, hpc⟩ := h.place
  rw [fetch?_of_toInt_pc hpc, ← Array.getElem?_toList, hcode, List.getElem?_append_right (by omega),
    Nat.sub_self, List.getElem?_cons_zero]

/-- An instruction that does not jump is left behind. -/
theorem applied (h : m.Before (i :: later)) {change : Change} (straight : change.target? = none) :
    (m.started.advance.apply change).Before later := by
  obtain ⟨earlier, hcode, hpc⟩ := h.place
  have hshort := h.short
  have hlength : m.code.size = earlier.length + (later.length + 1) := by
    rw [← Array.length_toList, hcode, List.length_append, List.length_cons]
  refine ⟨?_, ⟨earlier ++ [i], ?_, ?_⟩, ?_⟩
  · rw [apply_status]
    exact h.status
  · rw [apply_code, List.append_assoc]
    exact hcode
  · rw [pc_apply, straight, Option.getD_none]
    show (m.pc + 1).toInt = _
    rw [Word.toInt_add_one (by omega), hpc, List.length_append]
    rfl
  · rw [apply_code]
    exact hshort

end Machine.Before

namespace Session

variable {s s' : Session}

/-- One step of a session whose machine runs. -/
def Moves (s s' : Session) : Prop :=
  s.machine.isRunning = true ∧ s.step? = some s'

/-- A run ends where it ends after its first steps. -/
theorem run_of_moves {final : Session} {fuel : Nat} (h : ReflTransGen Moves s s')
    (finished : s'.run fuel = .finished final) : ∃ more, s.run more = .finished final := by
  induction h using ReflTransGen.head_induction_on with
  | refl => exact ⟨fuel, finished⟩
  | head moved _ ih =>
    obtain ⟨more, h⟩ := ih
    exact ⟨more + 1, (run_succ moved.1 moved.2).trans h⟩

theorem exists_moves {m' : Machine} {events : List Event} (running : s.machine.isRunning = true)
    (kept : s.keepsOutput = true) (way : Stepped s.mode s.machine m' events) :
    ∃ s', s.Moves s' ∧ s'.machine = m' ∧ s'.keepsOutput = true ∧
      s'.output = s.output ++ textOf Event.printedText events := by
  refine ⟨_, ⟨running, step?_of_step (step_of_stepped way)⟩, (foldl_observe_frame events _).1, ?_,
    output_foldl_observe events kept⟩
  rw [foldl_observe_keepsOutput]
  exact kept

/-- The step of an issued instruction prints what its change prints. -/
theorem exists_moves_of_plan {i : Instruction} {change : Change} (issued : s.machine.Issues i)
    (kept : s.keepsOutput = true) (plan : s.machine.plan i = .ok change) :
    ∃ s', s.Moves s' ∧ s'.machine = (s.machine.started.advance.apply change).settled i ∧
      s'.keepsOutput = true ∧ s'.output = s.output ++ textOf Event.printedText change.events := by
  obtain ⟨s', moved, hmachine, hkept, houtput⟩ := exists_moves issued.running kept
    (.executed issued.running issued.gap issued.fetched plan rfl)
  refine ⟨s', moved, hmachine, hkept, houtput.trans (congrArg _ ?_)⟩
  have hopening := textOf_of_notMem fun _ => printed_notMem_opening (m := s.machine)
  have haftermath : ∀ m : Machine, textOf Event.printedText (m.aftermath s.mode i) = "" :=
    fun m => textOf_of_notMem fun _ => printed_notMem_aftermath
  rw [textOf_append, hopening, textOf_cons, textOf_append, textOf_append, textOf_cons, haftermath]
  simp only [Event.printedText, String.empty_append, String.append_empty]
  exact String.append_empty

end Session

/-! ### The stack -/

/-- The numbers `held` have been pushed one by one from the end of the arena on, and the first
`depth` of them are on the stack. A pop leaves its cell as it is, so the others can still be read. -/
structure Machine.Holds (m : Machine) (size : Int64) (held : List Int32) (depth : Nat) : Prop where
  heap : m.heap = -1
  cursor : m.registers.hp = some 0
  top : ∃ sp, m.registers.sp = some sp ∧ sp.toInt = size.toInt - depth
  extent : (m.arena.size : Int) = size.toInt
  cells : ∀ {k : Nat} {v : Int32} {a : Int64}, held[k]? = some v → a.toInt = size.toInt - 1 - k →
    m.arena.read a = .ok (widen v)

namespace Machine.Holds

variable {m : Machine} {size : Int64} {held : List Int32} {depth : Nat}

theorem load (hsize : 0 ≤ size.toInt) (code : Array Instruction) :
    (Machine.load size code).Holds size [] 0 where
  heap := rfl
  cursor := rfl
  top := ⟨size, rfl, (Int.sub_zero _).symm⟩
  extent := by
    show ((Arena.ofSize size).size : Int) = size.toInt
    rw [Arena.size_ofSize, Int64.toNatClampNeg]
    omega
  cells h := by cases h

theorem checkGap_eq_ok_iff (h : m.Holds size held depth) :
    m.checkGap = .ok () ↔ depth + 2 ≤ size.toInt := by
  obtain ⟨sp, top, hsp⟩ := h.top
  have hone : (max (0 : Int64) (-1) + 1).toInt = 1 := rfl
  rw [checkGap_eq_ok, h.heap]
  constructor
  · rintro ⟨hp, sp', cursor, top', hlt⟩
    obtain rfl := Option.some.inj (h.cursor.symm.trans cursor)
    obtain rfl := Option.some.inj (top.symm.trans top')
    omega
  · intro room
    exact ⟨0, sp, h.cursor, top, by omega⟩

/-- A stack that is too high collides with the heap. -/
theorem checkGap_eq_collision (h : m.Holds size held depth) (full : size.toInt < depth + 2) :
    ∃ sp, m.checkGap = .error (.collision 0 (-1) sp) := by
  obtain ⟨sp, top, hsp⟩ := h.top
  have hone : (max (0 : Int64) (-1) + 1).toInt = 1 := rfl
  have hcursor : m.registers.value .hp = .ok 0 := value_eq_ok.mpr h.cursor
  have htop : m.registers.value .sp = .ok sp := value_eq_ok.mpr top
  have hmeet : max 0 (-1) + 1 ≥ sp := by
    rw [ge_iff_le, Int64.le_iff_toInt_le]
    omega
  refine ⟨sp, ?_⟩
  simp only [checkGap, hcursor, htop, ok_bind, h.heap, if_pos hmeet]
  rfl

theorem assigned (h : m.Holds size held depth) {r : Register} (other : r ≠ .sp ∧ r ≠ .hp)
    (w : Word) : (m.started.advance.apply (.assign r w)).Holds size held depth where
  heap := h.heap
  cursor := by
    rw [← h.cursor]
    exact (Registers.get_set ..).trans (if_neg other.2.symm)
  top := by
    obtain ⟨sp, top, hsp⟩ := h.top
    refine ⟨sp, ?_, hsp⟩
    rw [← top]
    exact (Registers.get_set ..).trans (if_neg other.1.symm)
  extent := h.extent
  cells := h.cells

theorem printed (h : m.Holds size held depth) (text : String) :
    (m.started.advance.apply (.print text)).Holds size held depth :=
  ⟨h.heap, h.cursor, h.top, h.extent, h.cells⟩

theorem pushed (h : m.Holds size held held.length) (room : held.length < size.toInt) {a : Int64}
    (ha : a.toInt = size.toInt - 1 - held.length) (v : Int32) :
    (m.started.advance.apply (.push a (some (widen v)))).Holds size (held ++ [v])
      (held.length + 1) where
  heap := h.heap
  cursor := h.cursor
  top := ⟨a, rfl, by omega⟩
  extent := by
    show ((m.arena.put a (some (widen v))).size : Int) = size.toInt
    rw [Arena.size_put, h.extent]
  cells := by
    intro k u b hk hb
    have hextent := h.extent
    have hin : m.arena.contains a := Arena.contains_iff.mpr ⟨by omega, by omega⟩
    show (m.arena.put a (some (widen v))).read b = .ok (widen u)
    rw [Arena.read_eq_ok, Arena.cell?_put hin]
    by_cases hlast : k = held.length
    · subst hlast
      rw [List.getElem?_concat_length] at hk
      obtain rfl := Option.some.inj hk
      rw [if_pos (Int64.toInt_inj.mp (by omega))]
    · have hlt : k < (held ++ [v]).length := (List.getElem?_eq_some_iff.mp hk).1
      rw [List.length_append, List.length_singleton] at hlt
      rw [List.getElem?_append_left (by omega)] at hk
      rw [if_neg (by rintro rfl; omega)]
      exact Arena.read_eq_ok.mp (h.cells hk hb)

theorem popped (h : m.Holds size held (depth + 1)) {sp : Int64} (top : m.registers.sp = some sp) :
    (m.started.advance.apply (.assign .sp (some (sp + 1)))).Holds size held depth where
  heap := h.heap
  cursor := h.cursor
  top := by
    obtain ⟨sp', top', hsp⟩ := h.top
    obtain rfl := Option.some.inj (top.symm.trans top')
    have hsize := size.toInt_lt
    exact ⟨sp + 1, rfl, by rw [Word.toInt_add_one (by omega)]; omega⟩
  extent := h.extent
  cells := h.cells

end Machine.Holds

/-! ### Running the program -/

namespace Session

/-- Before the instructions `later`, with the numbers `held` pushed and `text` printed. -/
structure Stands (s : Session) (size : Int64) (later : List Instruction) (held : List Int32)
    (depth : Nat) (text : String) : Prop where
  before : s.machine.Before later
  holds : s.machine.Holds size held depth
  kept : s.keepsOutput = true
  output : s.output = text

namespace Stands

variable {s : Session} {size : Int64} {i : Instruction} {later : List Instruction}
  {held : List Int32} {depth : Nat} {text : String}

theorem issues (h : s.Stands size (i :: later) held depth text)
    (room : depth + 2 ≤ size.toInt) : s.machine.Issues i :=
  ⟨decide_eq_true h.before.status, h.holds.checkGap_eq_ok_iff.mpr room, h.before.fetched⟩

theorem moves (h : s.Stands size (i :: later) held depth text) (room : depth + 2 ≤ size.toInt)
    {change : Change} (plan : s.machine.plan i = .ok change) (other : i.op ≠ .halt)
    (straight : change.target? = none) {held' : List Int32} {depth' : Nat} {text' : String}
    (holds : (s.machine.started.advance.apply change).Holds size held' depth')
    (printed : text ++ textOf Event.printedText change.events = text') :
    ∃ s', s.Moves s' ∧ s'.machine = s.machine.started.advance.apply change ∧
      s'.Stands size later held' depth' text' := by
  obtain ⟨s', moved, hmachine, hkept, houtput⟩ := exists_moves_of_plan (h.issues room) h.kept plan
  rw [settled, if_neg other] at hmachine
  refine ⟨s', moved, hmachine, ⟨?_, ?_, hkept, ?_⟩⟩
  · rw [hmachine]
    exact h.before.applied straight
  · rw [hmachine]
    exact holds
  · rw [houtput, h.output, printed]

theorem pushes_number {v : Int32} (h : s.Stands size (pushing v ++ later) held held.length text)
    (room : held.length + 2 ≤ size.toInt) :
    ∃ s', ReflTransGen Moves s s' ∧
      s'.Stands size later (held ++ [v]) (held ++ [v]).length text := by
  obtain ⟨s₁, first, hmachine, h₁⟩ := h.moves room
    (planLoadImmediate_eq rfl (Register.ofToken?_name .t1) (readInt32?_toInt v))
    (show Opcode.li ≠ .halt by decide) rfl (h.holds.assigned (by decide) _) String.append_empty
  have loaded : s₁.machine.registers.get .t1 = some (widen v) := by
    rw [hmachine]
    rfl
  obtain ⟨sp, top, hsp⟩ := h₁.holds.top
  have hextent := h₁.holds.extent
  have hlowered : (sp - 1).toInt = sp.toInt - 1 := Word.toInt_sub_one (by omega)
  have hin : s₁.machine.arena.contains (sp - 1) = true :=
    Arena.contains_iff.mpr ⟨by omega, by omega⟩
  have plan : s₁.machine.plan (.ofArgs .push ["$t1"] 0) =
      .ok (.push (sp - 1) (some (widen v))) := by
    rw [planPush_eq rfl (Register.ofToken?_name .t1) top, if_pos hin, Registers.get_set,
      if_neg (by decide), loaded]
  obtain ⟨s₂, second, -, h₂⟩ := h₁.moves room plan (by decide) rfl
    (h₁.holds.pushed (by omega) (by omega) v) String.append_empty
  refine ⟨s₂, .head first (.single second), ?_⟩
  rw [List.length_append]
  exact h₂

/-- **The first phase.** Every push needs a free cell above the one that the check wants. -/
theorem pushes (vs : List Int32) (h : s.Stands size (vs.flatMap pushing ++ later) held held.length
    text) (room : vs ≠ [] → held.length + vs.length < size.toInt) :
    ∃ s', ReflTransGen Moves s s' ∧
      s'.Stands size later (held ++ vs) (held ++ vs).length text := by
  -- The numbers held grow along the list; the code behind the pushes is the same throughout.
  induction vs generalizing s held with
  | nil =>
    rw [List.append_nil]
    exact ⟨s, .refl, h⟩
  | cons v rest ih =>
    have hroom := room (List.cons_ne_nil v rest)
    rw [List.length_cons] at hroom
    rw [List.flatMap_cons, List.append_assoc] at h
    obtain ⟨s₁, first, h₁⟩ := h.pushes_number (by omega)
    obtain ⟨s₂, second, h₂⟩ := ih h₁ fun _ => by
      rw [List.length_append, List.length_singleton]
      omega
    rw [List.append_assoc] at h₂
    exact ⟨s₂, first.trans second, h₂⟩

theorem pops_number {v : Int32} (h : s.Stands size (popping ++ later) held (depth + 1) text)
    (room : (depth + 1 : Nat) + 2 ≤ size.toInt) (hv : held[depth]? = some v) :
    ∃ s', ReflTransGen Moves s s' ∧
      s'.Stands size later held depth (text ++ (Decimal.ofInt v.toInt ++ "\n")) := by
  obtain ⟨sp, top, hsp⟩ := h.holds.top
  have hread : s.machine.arena.read (sp + 0) = .ok (widen v) := by
    rw [Int64.add_zero]
    exact h.holds.cells hv (by omega)
  have plan : s.machine.plan (.memory .lw "$a0" 0 "$sp") =
      demand ((s.machine.arena.read (sp + 0)).mapError .memory) >>= fun n =>
        .ok (.assign .a0 (some n)) :=
    planLoad_eq rfl (Register.ofToken?_name .a0) (Register.ofToken?_name .sp) top
  rw [hread] at plan
  obtain ⟨s₁, first, hmachine₁, h₁⟩ := h.moves room plan (by decide) rfl
    (h.holds.assigned (by decide) _) String.append_empty
  have loaded : s₁.machine.registers.get .a0 = some (widen v) := by
    rw [hmachine₁]
    rfl
  obtain ⟨s₂, second, -, h₂⟩ := h₁.moves room
    (planPrint_eq rfl (Register.ofToken?_name .a0) loaded) (by decide) rfl
    (h₁.holds.printed _) rfl
  obtain ⟨sp₂, top₂, -⟩ := h₂.holds.top
  obtain ⟨s₃, third, -, h₃⟩ := h₂.moves room (planPop_eq rfl top₂) (by decide) rfl
    (h₂.holds.popped top₂) String.append_empty
  refine ⟨s₃, .head first (.head second (.single third)), ?_⟩
  have htext : textOf Event.printedText (Change.print (Decimal.ofInt64 (widen v) ++ "\n")).events =
      Decimal.ofInt v.toInt ++ "\n" := by
    rw [Change.events, textOf_cons, Decimal.ofInt64, widen, Int32.toInt_toInt64]
    exact String.append_empty
  rwa [htext] at h₃

/-- **The second phase.** The numbers come back in the reverse order. -/
theorem pops (h : s.Stands size ((List.replicate depth popping).flatten ++ later) held depth text)
    (hdepth : depth ≤ held.length) (room : depth + 2 ≤ size.toInt) :
    ∃ s', ReflTransGen Moves s s' ∧
      s'.Stands size later held 0 (text ++ numberLines (held.take depth).reverse) := by
  induction depth generalizing s text with
  | zero =>
    refine ⟨s, .refl, ?_⟩
    rw [List.take_zero]
    exact String.append_empty.symm ▸ h
  | succ depth ih =>
    rw [List.replicate_succ, List.flatten_cons, List.append_assoc] at h
    have hv : held[depth]? = some held[depth] := List.getElem?_eq_getElem hdepth
    obtain ⟨s₁, first, h₁⟩ := h.pops_number room hv
    obtain ⟨s₂, second, h₂⟩ := ih h₁ (by omega) (by omega)
    refine ⟨s₂, first.trans second, ?_⟩
    rw [List.take_add_one, hv, Option.toList_some, List.reverse_append]
    rw [String.append_assoc] at h₂
    exact h₂

/-- Before `halt`, the machine halts. -/
theorem halts (h : s.Stands size [.ofArgs .halt [] 0] held depth text)
    (room : depth + 2 ≤ size.toInt) :
    ∃ s', s.Moves s' ∧ s'.machine.status = .halted ∧ s'.output = text ∧
      s'.machine.registers.sp = s.machine.registers.sp := by
  obtain ⟨s', moved, hmachine, -, houtput⟩ := exists_moves_of_plan (h.issues room) h.kept rfl
  refine ⟨s', moved, ?_, ?_, ?_⟩
  · rw [hmachine]
    rfl
  · rw [houtput, h.output]
    exact String.append_empty
  · rw [hmachine]
    rfl

/-- With too many numbers on the stack the machine stops, whatever comes next. -/
theorem collides (h : s.Stands size later held depth text) (full : size.toInt < depth + 2) :
    ∃ s' f, s.Moves s' ∧ s'.machine.status = .faulted f ∧ f.exhibits .collision = true ∧
      s'.output = text := by
  obtain ⟨sp, gap⟩ := h.holds.checkGap_eq_collision full
  have running : s.machine.isRunning = true := decide_eq_true h.before.status
  have way : Stepped s.mode s.machine _ _ := .refused running gap rfl
  obtain ⟨s', moved, hmachine, -, houtput⟩ := exists_moves running h.kept way
  refine ⟨s', .ofCause (.collision 0 (-1) sp) s.machine.pc {}, moved, ?_, ?_, ?_⟩
  · rw [hmachine]
    rfl
  · rfl
  · rw [houtput, textOf_of_notMem (printed_notMem_of_faulted way rfl), h.output]
    exact String.append_empty

theorem load {vs : List Int32} (hsize : 0 ≤ size.toInt)
    (short : (stackProgram vs).length < 2 ^ 63)
    (loaded : s.machine = Machine.load size (stackProgram vs).toArray)
    (kept : s.keepsOutput = true) (fresh : s.output = "") :
    s.Stands size (stackProgram vs) [] 0 "" := by
  refine ⟨?_, ?_, kept, fresh⟩
  · rw [loaded]
    exact ⟨rfl, ⟨[], rfl, rfl⟩, short⟩
  · rw [loaded]
    exact .load hsize _

/-- With two cells to spare, the program goes to its end. -/
theorem succeeds {vs : List Int32} (h : s.Stands size (stackProgram vs) [] 0 "")
    (room : vs.length + 2 ≤ size.toInt) :
    ∃ s', ReflTransGen Moves s s' ∧ s'.machine.status = .halted ∧
      s'.output = numberLines vs.reverse ∧ s'.machine.registers.sp = some size := by
  obtain ⟨s₁, first, h₁⟩ := h.pushes vs fun _ => by
    rw [List.length_nil]
    omega
  rw [List.nil_append] at h₁
  obtain ⟨s₂, second, h₂⟩ := h₁.pops (Nat.le_refl _) room
  obtain ⟨s₃, third, status, houtput, hsp⟩ := h₂.halts (by omega)
  refine ⟨s₃, (first.trans second).tail third, status, ?_, ?_⟩
  · rw [houtput, List.take_length, String.empty_append]
  · obtain ⟨sp, top, htop⟩ := h₂.holds.top
    rw [hsp, top, Option.some.injEq, ← Int64.toInt_inj, htop]
    exact Int.sub_zero _

/-- With less, it is stopped when the stack top is at address 1, or at once. -/
theorem fails {vs : List Int32} (hsize : 0 ≤ size.toInt)
    (h : s.Stands size (stackProgram vs) [] 0 "") (full : size.toInt < vs.length + 2) :
    ∃ s' f, ReflTransGen Moves s s' ∧ s'.machine.status = .faulted f ∧
      f.exhibits .collision = true ∧ s'.output = "" := by
  -- The check stops the machine behind the first `k` pushes, whether or not there are more.
  obtain ⟨k, hk⟩ : ∃ k, k = size.toInt.toNat - 1 := ⟨_, rfl⟩
  have hprogram : stackProgram vs = (vs.take k).flatMap pushing ++ ((vs.drop k).flatMap pushing ++
      ((List.replicate vs.length popping).flatten ++ [.ofArgs .halt [] 0])) := by
    rw [← List.append_assoc, ← List.flatMap_append, List.take_append_drop]
    rfl
  have hlength : (vs.take k).length = k := by
    rw [List.length_take]
    omega
  rw [hprogram] at h
  obtain ⟨s₁, first, h₁⟩ := h.pushes (vs.take k) fun hne => by
    have hpos := List.length_pos_iff.mpr hne
    rw [List.length_nil]
    omega
  rw [List.nil_append, hlength] at h₁
  obtain ⟨s₂, f, second, status, collision, houtput⟩ := h₁.collides (by omega)
  exact ⟨s₂, f, first.tail second, status, collision, houtput⟩

end Stands

end Session

/-- **The stack gives back what was pushed.** A program pushes some numbers, then prints and pops as
many, and is to halt. It does so exactly if the arena has at least two cells more than there are
numbers; it has then printed them in reverse order, and the stack top is back at the end of the
arena. Otherwise it stops at a collision before it has printed anything. In no run does it write to
the bottom cell. The program is what its text is assembled to, if the text is short enough for the
assembler. -/
theorem stack_discipline {vs : List Int32} {size : Int64} {s : Session} (hsize : 0 ≤ size.toInt)
    (short : (stackProgram vs).length < 2 ^ 63)
    (loaded : s.machine = Machine.load size (stackProgram vs).toArray)
    (kept : s.keepsOutput = true) (fresh : s.output = "") :
    (∃ fuel s', s.run fuel = .finished s' ∧
      (s'.machine.status = .halted ↔ vs.length + 2 ≤ size.toInt) ∧
      (vs.length + 2 ≤ size.toInt →
        s'.output = numberLines vs.reverse ∧ s'.machine.registers.sp = some size) ∧
      (size.toInt < vs.length + 2 →
        s'.output = "" ∧ ∃ f, s'.machine.status = .faulted f ∧ f.exhibits .collision = true)) ∧
    (∀ {ts : List Transition} {m : Machine}, Run s.mode s.machine ts m →
      (∀ t ∈ ts, ¬ t.Touches 0) ∧ m.arena.cell? 0 = (Arena.ofSize size).cell? 0) ∧
    (Assembly.assemble (Assembly.format (stackProgram vs)) = .ok (stackProgram vs) ↔
      (stackProgram vs).length < Assembly.repetitionLimit) := by
  refine ⟨?_, fun run => ?_, assemble_stackProgram vs⟩
  · have start := Session.Stands.load hsize short loaded kept fresh
    by_cases room : vs.length + 2 ≤ size.toInt
    · obtain ⟨s', ends, status, houtput, hsp⟩ := start.succeeds room
      obtain ⟨fuel, finished⟩ := Session.run_of_moves ends
        (Session.run_stopped (by simp [isRunning, status]) 0)
      exact ⟨fuel, s', finished, iff_of_true status room, fun _ => ⟨houtput, hsp⟩,
        fun full => absurd room (by omega)⟩
    · obtain ⟨s', f, ends, status, collision, houtput⟩ := start.fails hsize (by omega)
      obtain ⟨fuel, finished⟩ := Session.run_of_moves ends
        (Session.run_stopped (by simp [isRunning, status]) 0)
      exact ⟨fuel, s', finished, iff_of_false (by simp [status]) room, fun h => absurd h room,
        fun _ => ⟨houtput, f, status, collision⟩⟩
  · rw [loaded] at run
    exact bottom_untouched (pushesOnly_stackProgram vs) run

/-- Pushes two numbers on an arena of this size. -/
def pushTwo (size : Int64) : Session :=
  { machine := Machine.load size (stackProgram [2147483647, -7]).toArray }

/-- Four cells are enough for two numbers, three are not. -/
theorem stack_discipline_two :
    (∃ fuel s', (pushTwo 4).run fuel = .finished s' ∧ s'.machine.status = .halted ∧
      s'.output = "-7\n2147483647\n" ∧ s'.machine.registers.sp = some 4) ∧
    ∃ fuel s', (pushTwo 3).run fuel = .finished s' ∧ s'.output = "" ∧
      ∃ f, s'.machine.status = .faulted f ∧ f.exhibits .collision = true := by
  obtain ⟨⟨fuel, s', finished, halts, succeeds, -⟩, -⟩ :=
    stack_discipline (s := pushTwo 4) (by decide) (by decide) rfl rfl rfl
  obtain ⟨⟨fuel', s'', finished', -, -, fails⟩, -⟩ :=
    stack_discipline (s := pushTwo 3) (by decide) (by decide) rfl rfl rfl
  have htext : numberLines [-7, 2147483647] = "-7\n2147483647\n" := by decide +kernel
  obtain ⟨houtput, hsp⟩ := succeeds (by decide)
  exact ⟨⟨fuel, s', finished, halts.mpr (by decide), houtput.trans htext, hsp⟩,
    fuel', s'', finished', fails (by decide)⟩

end RegisterMachine
