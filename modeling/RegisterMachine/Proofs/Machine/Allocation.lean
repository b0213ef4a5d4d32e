import RegisterMachine.Proofs.Machine.Faults
import RegisterMachine.Proofs.Machine.Width

/-!
# Allocation is complete

A store through the heap cursor looks at one cell only, the lowest free one, and compares it with
the stack top. That is enough: if any free cell is far enough below the stack, so is the lowest. An
allocation therefore fails only if there is no cell for it, and its failure tells whether the arena
is full or the free cells are too close to the stack.
-/

set_option autoImplicit false

namespace RegisterMachine

open Checks Machine

namespace Arena

/-- The address is that of a free cell. -/
def Free (arena : Arena) (a : Int64) : Prop :=
  ∃ c, arena.cell? a = some c ∧ c.live = false

/-- The address is that of a free cell which leaves another cell below the stack top `sp`. -/
def Room (arena : Arena) (sp a : Int64) : Prop :=
  arena.Free a ∧ a.toInt + 1 < sp.toInt

variable {arena : Arena} {sp a : Int64} {k : Nat}

theorem Free.getElem? (h : arena.Free a) :
    ∃ c, arena.cells[a.toNatClampNeg]? = some c ∧ c.live = false := by
  obtain ⟨c, hc, hfree⟩ := h
  have hin := contains_iff.mp (contains_of_cell? hc)
  rw [cell?_of_nonneg hin.1] at hc
  exact ⟨c, hc, hfree⟩

/-- The search overlooks no free cell. -/
theorem not_free_of_firstFree?_eq_none (h : arena.firstFree? = none) : ¬ arena.Free a := by
  intro hfree
  obtain ⟨c, hc, hlive⟩ := hfree.getElem?
  have hall := Array.findIdx?_eq_none_iff.mp h c (Array.mem_of_getElem? hc)
  simp [hlive] at hall

/-- The search ends at the lowest of the free cells. -/
theorem firstFree?_le (h : arena.firstFree? = some k) (hfree : arena.Free a) : k ≤ a.toInt := by
  obtain ⟨c, hc, hlive⟩ := hfree.getElem?
  obtain ⟨hlt, hget⟩ := Array.getElem?_eq_some_iff.mp hc
  obtain ⟨_, _, hbefore⟩ := Array.findIdx?_eq_some_iff_getElem.mp h
  have hle : k ≤ a.toNatClampNeg := by
    by_contra hlow
    have hused := hbefore a.toNatClampNeg (by omega)
    simp [hget, hlive] at hused
  have hin := contains_iff.mp (contains_of_cell? hfree.choose_spec.1)
  rw [Int64.toNatClampNeg] at hle
  omega

theorem firstFree_eq_error (h : arena.firstFree? = none) :
    arena.firstFree = .error { kind := .outOfRange, index := arena.size, size := arena.size } := by
  rw [firstFree, h]

end Arena

/-! ### The decision -/

section Plan

variable {m : Machine} {i : Instruction} {r : Register} {sp : Int64} {k : Nat}

/-- A store through the heap cursor is an allocation, whatever its offset is. -/
theorem planStore_allocate (op : i.op = .sw) (source : Register.ofToken? i.arg1 = some r)
    (names : Register.ofToken? i.arg2 = some .hp) :
    m.plan i = m.planAllocate (m.registers.get r) := by
  have hsource : demand (m.operandWord i 0) = .ok (m.registers.get r) :=
    demand_eq_ok.mpr (operandWord_eq_ok.mpr ⟨r, source, rfl⟩)
  have hbase : demand (operandRegister i 1) = .ok .hp :=
    demand_eq_ok.mpr (operandRegister_eq_ok.mpr names)
  simp only [plan, op, planStore, hsource, hbase, if_pos, ok_bind]

theorem planAllocate_full (w : Word) (top : m.registers.sp = some sp)
    (full : m.arena.firstFree? = none) :
    m.planAllocate w = .error (.fault (.memory
      { kind := .outOfRange, index := m.arena.size, size := m.arena.size })) := by
  have hvalue : demand (m.registers.value .sp) = .ok sp := demand_eq_ok.mpr (value_eq_ok.mpr top)
  simp only [planAllocate, hvalue, ok_bind, Arena.firstFree_eq_error full]
  rfl

theorem planAllocate_free (w : Word) (top : m.registers.sp = some sp)
    (free : m.arena.firstFree? = some k) (small : k < 2 ^ 63 - 1) :
    m.planAllocate w = if k + 1 < sp.toInt then .ok (.allocate (.ofNat k) w)
      else .error (.fault (.allocationCollision (.ofNat k) sp)) := by
  have hvalue : demand (m.registers.value .sp) = .ok sp := demand_eq_ok.mpr (value_eq_ok.mpr top)
  have hslot : demand (m.arena.firstFree.mapError .memory) = .ok k := by
    rw [Arena.firstFree_eq_ok.mpr free]
    rfl
  have hint : (Int64.ofNat k).toInt = k := Int64.toInt_ofNat_of_lt (by omega)
  have hnext : (Int64.ofNat k + 1).toInt = k + 1 := by
    rw [Word.toInt_add_one (by omega), hint]
  have hroom : Int64.ofNat k + 1 ≥ sp ↔ ¬ (k : Int) + 1 < sp.toInt := by
    rw [ge_iff_le, Int64.le_iff_toInt_le, hnext, Int.not_lt]
  simp only [planAllocate, hvalue, hslot, ok_bind, error_bind, pure_eq, throw_eq, hroom, ite_not]

end Plan

/-! ### The step -/

/-- What becomes of the allocation of `w`, with the stack top at `sp`. -/
structure AllocationOutcome (sp : Int64) (w : Word) (m m' : Machine) : Prop where
  /-- It succeeds exactly if there is a cell for it. -/
  complete : m'.isRunning = true ↔ ∃ a, m.arena.Room sp a
  /-- It then takes the lowest such cell, and writes nothing but this cell and the accumulator. -/
  taken : (∃ a, m.arena.Room sp a) → ∃ a, m.arena.Room sp a ∧ (∀ b, m.arena.Room sp b → a ≤ b) ∧
    m'.registers = m.registers.set .a0 (some a) ∧
    ∀ b, m'.arena.cell? b = if b = a then some { value := w, live := true } else m.arena.cell? b
  /-- It otherwise writes nothing at all. -/
  refused : (¬ ∃ a, m.arena.Room sp a) → m'.registers = m.registers ∧ m'.arena = m.arena ∧
    ∃ f, m'.status = .faulted f ∧ f.kind = .memoryAccessFault ∧
      ((∃ a, m.arena.Free a) → f.conditions = {.memoryAccess, .collision}) ∧
      ((¬ ∃ a, m.arena.Free a) → f.conditions = {.memoryAccess, .outOfRange})

section Step

variable {mode : TraceMode} {m m' : Machine} {i : Instruction} {sp : Int64} {w : Word}
  {cause : Cause} {events : List Event}

/-- An allocation that faults. -/
theorem allocationOutcome_refused (none : ¬ ∃ a, m.arena.Room sp a)
    (hkind : cause.kind = .memoryAccessFault)
    (collides : (∃ a, m.arena.Free a) → cause.condition? = some .collision)
    (full : (¬ ∃ a, m.arena.Free a) → cause.condition? = some .outOfRange) :
    AllocationOutcome sp w m (m.started.advance.fail (.ofCause cause m.pc i)) where
  complete := iff_of_false (by simp [isRunning, fail]) none
  taken room := absurd room none
  refused _ := ⟨rfl, rfl, _, rfl, hkind, fun free => conditions_of_memory hkind (collides free),
    fun hfull => conditions_of_memory hkind (full hfull)⟩

/-- An allocation that takes the lowest free cell. -/
theorem allocationOutcome_taken {a : Int64} (running : m.isRunning = true) (other : i.op ≠ .halt)
    (room : m.arena.Room sp a) (lowest : ∀ b, m.arena.Room sp b → a ≤ b) :
    AllocationOutcome sp w m ((m.started.advance.apply (.allocate a w)).settled i) where
  complete := by
    have hstill : ((m.started.advance.apply (.allocate a w)).settled i).isRunning = true := by
      rw [settled, if_neg other]
      exact running
    exact iff_of_true hstill ⟨a, room⟩
  taken _ := by
    obtain ⟨c, hc, -⟩ := room.1
    refine ⟨a, room, lowest, by rw [settled_registers]; rfl, fun b => ?_⟩
    rw [settled_arena]
    exact Arena.cell?_put (Arena.contains_of_cell? hc) w b
  refused none := absurd ⟨a, room⟩ none

end Step

/-- **Allocation is complete and takes the lowest cell.** In every state whose next instruction is a
store of a known register through the heap cursor, the store succeeds exactly if some free cell is
below the stack top with another cell between them. It takes the lowest such cell, whatever its
offset is. An arena has no more cells than there are addresses. -/
theorem allocation_complete {mode : TraceMode} {m : Machine} {i : Instruction} {r : Register}
    (hsize : m.arena.size < 2 ^ 63) (issued : m.Issues i) (op : i.op = .sw)
    (source : Register.ofToken? i.arg1 = some r) (names : Register.ofToken? i.arg2 = some .hp) :
    ∃ sp m' events, m.registers.sp = some sp ∧ m.step mode = some (m', events) ∧
      AllocationOutcome sp (m.registers.get r) m m' := by
  obtain ⟨running, gap, fetched⟩ := issued
  obtain ⟨hp, sp, -, top, -⟩ := checkGap_eq_ok.mp gap
  have hplan := planStore_allocate (m := m) op source names
  cases free : m.arena.firstFree? with
  | none =>
    have full : ¬ ∃ a, m.arena.Free a := fun ⟨a, ha⟩ =>
      Arena.not_free_of_firstFree?_eq_none free ha
    rw [planAllocate_full _ top free] at hplan
    refine ⟨sp, _, _, top, step_of_stepped (.faulted running gap fetched hplan rfl), ?_⟩
    exact allocationOutcome_refused (fun ⟨a, room⟩ => full ⟨a, room.1⟩) rfl
      (fun found => absurd found full) (fun _ => rfl)
  | some k =>
    have hlt := Arena.firstFree?_lt free
    have hk : (Int64.ofNat k).toInt = k := Int64.toInt_ofNat_of_lt (by omega)
    have found : m.arena.Free (.ofNat k) := Arena.firstFree?_eq_some (by omega) free
    rw [planAllocate_free _ top free (by omega)] at hplan
    by_cases room : (k : Int) + 1 < sp.toInt
    · rw [if_pos room] at hplan
      refine ⟨sp, _, _, top, step_of_stepped (.executed running gap fetched hplan rfl), ?_⟩
      refine allocationOutcome_taken running (by simp [op]) ⟨found, by omega⟩ fun b hb => ?_
      have hle := Arena.firstFree?_le free hb.1
      exact Int64.le_iff_toInt_le.mpr (by omega)
    · rw [if_neg room] at hplan
      refine ⟨sp, _, _, top, step_of_stepped (.faulted running gap fetched hplan rfl), ?_⟩
      refine allocationOutcome_refused ?_ rfl (fun _ => rfl) (fun full => absurd ⟨_, found⟩ full)
      -- The other free cells are no lower than the one that is too high.
      rintro ⟨a, hfree, hbelow⟩
      have hle := Arena.firstFree?_le free hfree
      omega

/-- Allocates two cells, gives the first one back and allocates again. -/
def reuseLowest : Array Instruction :=
  #[.ofArgs .li ["$t1", "0"] 0, .memory .sw "$t1" 0 "$hp", .memory .sw "$t1" 0 "$hp",
    .ofArgs .del ["$t1"] 0, .memory .sw "$a0" 7 "$hp"]

/-- The machine of which the last allocation comes next; the accumulator holds 1. -/
def beforeReuse : Machine :=
  { Machine.load 6 reuseLowest with
    arena := (((Arena.ofSize 6).put 0 (some 0)).put 1 (some 0)).release 0
    registers := ((Registers.ofSize 6).set .t1 (some 0)).set .a0 (some 1)
    pc := 4
    heap := 1
    live := [1]
    steps := 4
    begun := true }

/-- The cell that was given back is taken first, for the old accumulator. -/
theorem allocation_complete_reuse :
    (Machine.load 6 reuseLowest).after? .off 4 = some beforeReuse ∧
      ∃ sp m' events, beforeReuse.step .off = some (m', events) ∧
        m'.registers.a0 = some 0 ∧ m'.arena.cell? 0 = some { value := some 1, live := true } ∧
        AllocationOutcome sp (some 1) beforeReuse m' := by
  have issued : beforeReuse.Issues (.memory .sw "$a0" 7 "$hp") :=
    ⟨by decide, by decide, by decide⟩
  have hstep : (beforeReuse.step .off).map (fun r => (r.1.registers.a0, r.1.arena.cell? 0)) =
      some (some 0, some { value := some 1, live := true }) := by decide +kernel
  obtain ⟨sp, m', events, -, taken, outcome⟩ : ∃ sp m' events, beforeReuse.registers.sp = some sp ∧
      beforeReuse.step .off = some (m', events) ∧ AllocationOutcome sp (some 1) beforeReuse m' :=
    allocation_complete (r := .a0) (by decide) issued rfl (by decide) (by decide)
  rw [taken] at hstep
  obtain ⟨ha0, hcell⟩ := Prod.mk.inj (Option.some.inj hstep)
  exact ⟨by decide +kernel, sp, m', events, taken, ha0, hcell, outcome⟩

end RegisterMachine
