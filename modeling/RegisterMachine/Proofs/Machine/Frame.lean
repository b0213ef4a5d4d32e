import RegisterMachine.Proofs.Machine.Atomicity
import RegisterMachine.Proofs.Machine.Effects
import RegisterMachine.Proofs.Machine.Integrity
import RegisterMachine.Proofs.Machine.Observation

/-!
# The frame of an executed instruction

An instruction that is executed touches at most one cell and at most one register. Which ones can
be read off its operands and the state before it: the operands may name `$sp`, `$hp` and `$a0`, and
the same register twice. The same holds of the place where the machine goes on. Everything else is
left as it was: the program always, the allocated addresses outside allocations and deletions, and
the printed text outside the two instructions that print.
-/

set_option autoImplicit false

namespace RegisterMachine

open Machine

/-- A store through the heap cursor. -/
def Instruction.Allocates (i : Instruction) : Prop :=
  i.op = .sw ∧ Register.ofToken? i.arg2 = some .hp

instance (i : Instruction) : Decidable i.Allocates :=
  inferInstanceAs (Decidable (_ ∧ _))

/-- The number in the register that a token names. -/
def Registers.holds? (rs : Registers) (token : String) : Option Int64 :=
  (Register.ofToken? token).bind rs.get

namespace Machine

/-- The address of the one cell that an instruction touches. -/
def touched? (m : Machine) (i : Instruction) : Option Int64 :=
  match i.op with
  | .push => m.registers.sp.map (· - 1)
  | .sw =>
    if i.Allocates then m.arena.firstFree?.map Int64.ofNat
    else (m.registers.holds? i.arg2).map (· + i.offset)
  | .del => m.registers.holds? i.arg1
  | _ => none

/-- Where an instruction leads, if not behind itself. A branch that is not taken leads nowhere
else. -/
def destined? (m : Machine) (i : Instruction) : Option Int64 :=
  match i.op with
  | .beq =>
    if m.registers.holds? i.arg1 = m.registers.holds? i.arg2 then Decimal.readInt32? i.arg3
    else none
  | .bleq =>
    if ∃ a ∈ m.registers.holds? i.arg1, ∃ b ∈ m.registers.holds? i.arg2, a ≤ b then
      Decimal.readInt32? i.arg3
    else none
  | .b | .jal => Decimal.readInt32? i.arg1
  | .jr => m.registers.holds? i.arg1
  | _ => none

end Machine

/-! ### Rules -/

theorem Registers.holds?_eq {rs : Registers} {token : String} {r : Register}
    (names : Register.ofToken? token = some r) : rs.holds? token = rs.get r := by
  rw [holds?, names, Option.bind_some]

namespace Decides

variable {m : Machine} {i : Instruction} {change : Change}

/-- **The cell of a change is the one that can be read off the instruction.** -/
theorem address?_eq (h : Decides m.registers m.arena i change) :
    change.address? = m.touched? i := by
  unfold touched?
  cases h with
  | push op source top => simp only [op, top, Option.map_some, Change.address?]
  | @allocate r sp slot op source names top free =>
    have hallocates : i.Allocates := ⟨op, names⟩
    simp only [op, if_pos hallocates, free, Option.map_some, Change.address?]
  | @store r base b op source names other holds =>
    have hplain : ¬ i.Allocates := fun h => other (Option.some.inj (names.symm.trans h.2))
    simp only [op, if_neg hplain, Registers.holds?_eq names, holds, Option.map_some,
      Change.address?]
  | release op names holds => simp only [op, Registers.holds?_eq names, holds, Change.address?]
  | compute op | computeImmediate op =>
    simp only [List.mem_cons, List.not_mem_nil, or_false] at op
    rcases op with op | op | op | op <;> rw [op] <;> rfl
  | pop op | load op | loadImmediate op | move op | conjoin op | disjoin op | negate op | print op
  | printChar op | branchEqual op | passUnequal op | branchLessEqual op | passGreater op | branch op
  | call op | jumpRegister op | halt op => rw [op]; rfl

/-- **So is the place where it makes the machine go on.** -/
theorem target?_eq_destined? (h : Decides m.registers m.arena i change) :
    change.target? = m.destined? i := by
  unfold destined?
  cases h with
  | branchEqual op left right number equal =>
    simp only [op, Registers.holds?_eq left, Registers.holds?_eq right, if_pos equal, number,
      Change.target?]
  | passUnequal op left right number unequal =>
    simp only [op, Registers.holds?_eq left, Registers.holds?_eq right, if_neg unequal,
      Change.target?]
  | branchLessEqual op left first right second number le =>
    simp [op, Registers.holds?_eq left, Registers.holds?_eq right, first, second, le, number,
      Change.target?]
  | passGreater op left first right second number gt =>
    simp [op, Registers.holds?_eq left, Registers.holds?_eq right, first, second, gt,
      Change.target?]
  | branch op number | call op number => simp only [op, number, Change.target?]
  | jumpRegister op names holds => simp only [op, Registers.holds?_eq names, holds, Change.target?]
  | compute op | computeImmediate op =>
    simp only [List.mem_cons, List.not_mem_nil, or_false] at op
    rcases op with op | op | op | op <;> rw [op] <;> rfl
  | push op | pop op | load op | allocate op | store op | loadImmediate op | move op | conjoin op
  | disjoin op | negate op | release op | print op | printChar op | halt op => rw [op]; rfl

/-- Only allocations and deletions concern the allocated addresses. -/
theorem heap_apply (h : Decides m.registers m.arena i change) (other : ¬ i.Allocates)
    (kept : i.op ≠ .del) (before : Machine) :
    (before.apply change).heap = before.heap ∧ (before.apply change).live = before.live := by
  cases h with
  | allocate op source names => exact absurd ⟨op, names⟩ other
  | release op => exact absurd op kept
  | _ => exact ⟨rfl, rfl⟩

/-- Only the two printing instructions print. -/
theorem events_eq_nil (h : Decides m.registers m.arena i change) (number : i.op ≠ .print)
    (char : i.op ≠ .printchar) : change.events = [] := by
  cases h with
  | print op => exact absurd op number
  | printChar op => exact absurd op char
  | _ => rfl

end Decides

/-! ### Cells -/

namespace Arena

variable {a : Arena} {i : Int64} {k : Nat}

theorem getElem?_put_of_ne (h : i.toInt ≠ k) (w : Word) : (a.put i w).cells[k]? = a.cells[k]? := by
  unfold put
  split
  · rfl
  · next hpos =>
    have hzero : (0 : Int64).toInt = 0 := rfl
    rw [Int64.lt_iff_toInt_lt, hzero] at hpos
    exact Array.getElem?_setIfInBounds_ne (by rw [Int64.toNatClampNeg]; omega)

theorem getElem?_release_of_ne (h : i.toInt ≠ k) : (a.release i).cells[k]? = a.cells[k]? := by
  unfold release
  split
  · rfl
  · next hpos =>
    have hzero : (0 : Int64).toInt = 0 := rfl
    rw [Int64.lt_iff_toInt_lt, hzero] at hpos
    rw [Array.getElem?_modify, if_neg (by rw [Int64.toNatClampNeg]; omega)]

end Arena

namespace Machine

variable (m : Machine) (change : Change)

theorem size_arena_apply : (m.apply change).arena.size = m.arena.size := by
  cases change with
  | push | store | allocate => exact Arena.size_put _ _ _
  | release a =>
    rw [apply, forget_arena]
    exact Arena.size_release _ _
  | nothing | assign | print | jump | call => rfl

/-- A cell whose address a change does not concern stays as it is. -/
theorem getElem?_cells_apply {k : Nat} (h : ∀ a ∈ change.address?, a.toInt ≠ k) :
    (m.apply change).arena.cells[k]? = m.arena.cells[k]? := by
  cases change with
  | push a w => exact Arena.getElem?_put_of_ne (h a rfl) w
  | store a w => exact Arena.getElem?_put_of_ne (h a rfl) w
  | allocate a w => exact Arena.getElem?_put_of_ne (h a rfl) w
  | release a =>
    rw [apply, forget_arena]
    exact Arena.getElem?_release_of_ne (h a rfl)
  | nothing | assign | print | jump | call => rfl

end Machine

/-! ### Steps -/

/-- What an executed instruction leaves as it was, and where it leads. -/
structure InstructionFrame (m : Machine) (i : Instruction) (m' : Machine) : Prop where
  code : m'.code = m.code
  size : m'.arena.size = m.arena.size
  /-- At most one cell differs, the one at the touched address. -/
  cells : ∀ k : Nat, (∀ a ∈ m.touched? i, a.toInt ≠ k) →
    m'.arena.cells[k]? = m.arena.cells[k]?
  /-- At most one register differs, the destination. -/
  registers : ∀ r, i.destination? ≠ some r → m'.registers.get r = m.registers.get r
  /-- An allocation does not move the heap cursor. -/
  cursor : i.Allocates → m'.registers.hp = m.registers.hp
  heap : ¬ i.Allocates → i.op ≠ .del → m'.heap = m.heap ∧ m'.live = m.live
  pc : m'.pc = (m.destined? i).getD (m.pc + 1)
  /-- The next place is the next number. No program has more instructions than indices. -/
  next : m.code.size < 2 ^ 63 → (m.pc + 1).toInt = m.pc.toInt + 1

theorem Machine.Issues.frame {m : Machine} {i : Instruction} {change : Change} (h : m.Issues i)
    (plan : m.plan i = .ok change) :
    InstructionFrame m i ((m.started.advance.apply change).settled i) := by
  have rule := decides_of_plan plan
  have hregisters : ∀ r, i.destination? ≠ some r →
      (m.started.advance.apply change).registers.get r = m.registers.get r := fun r hr =>
    m.started.advance.get_registers_apply change (rule.destination?_eq ▸ hr)
  refine ⟨?_, ?_, fun k hk => ?_, fun r hr => ?_, fun allocates => ?_, fun other kept => ?_, ?_,
    h.toInt_advanced⟩
  · rw [settled_code, apply_code]
    rfl
  · rw [settled_arena, size_arena_apply]
    rfl
  · rw [settled_arena]
    exact m.started.advance.getElem?_cells_apply change (rule.address?_eq ▸ hk)
  · rw [settled_registers, hregisters r hr]
  · have hdestination : i.destination? = some .a0 := by
      simp only [Instruction.destination?, allocates.1, if_pos allocates.2]
    rw [settled_registers]
    exact hregisters .hp (by rw [hdestination]; decide)
  · rw [settled_heap, settled_live]
    exact rule.heap_apply other kept m.started.advance
  · rw [settled_pc, pc_apply, rule.target?_eq_destined?]
    rfl

/-- A step that does not fault has executed the instruction that was issued. -/
theorem Stepped.executed_of_issues {mode : TraceMode} {m m' : Machine} {events : List Event}
    {i : Instruction} (h : Stepped mode m m' events) (issued : m.Issues i)
    (sound : m'.fault? = none) :
    ∃ change, m.plan i = .ok change ∧ m' = (m.started.advance.apply change).settled i ∧
      textOf Event.printedText events = textOf Event.printedText change.events := by
  cases h with
  | idle stopped => simp [issued.running] at stopped
  | refused running gap next => simp [issued.gap] at gap
  | lost running gap fetched next => simp [issued.fetched] at fetched
  | faulted running gap fetched refusal next =>
    subst next
    cases sound
  | overrun running gap fetched refusal next =>
    subst next
    cases sound
  | @executed j change after running gap fetched plan next =>
    obtain rfl := issued.unique ⟨running, gap, fetched⟩
    refine ⟨change, plan, by rw [next], ?_⟩
    have hopening : textOf Event.printedText m.opening = "" :=
      textOf_of_notMem fun _ => printed_notMem_opening
    have haftermath : textOf Event.printedText (after.aftermath mode i) = "" :=
      textOf_of_notMem fun _ => printed_notMem_aftermath
    have hexecuted : textOf Event.printedText [.executed m.pc i after.view] = "" := rfl
    have hfetched : Event.printedText (.fetched m.pc i m.view) = "" := rfl
    rw [textOf_append, textOf_cons, textOf_append, textOf_append, hopening, haftermath, hexecuted,
      hfetched, String.empty_append, String.empty_append, String.append_empty,
      String.append_empty]

/-- A session that keeps no printed text has none added to it. -/
theorem Session.output_foldl_observe_unkept (events : List Event) {s : Session}
    (unkept : s.keepsOutput = false) : (events.foldl observe s).output = s.output := by
  have hsilent : (events.foldl observe s).output = s.output ++ textOf (fun _ => "") events := by
    refine foldl_observe_text (P := fun s => s.keepsOutput = false) ?_ ?_ events unkept
    · intro s e unkept
      exact (foldl_observe_keepsOutput [e] s).trans unkept
    · intro s e unkept
      rw [String.append_empty]
      cases e with
      | printed text => simp only [observe, unkept, Bool.false_eq_true, if_false]
      | _ =>
        simp only [observe]
        split <;> rfl
  rw [hsilent, textOf_eq_empty _ fun _ _ => rfl, String.append_empty]

/-- **An executed instruction changes what it names and nothing else**, in every state: one cell at
most, one register at most, the allocated addresses only if it allocates or deletes, the printed
text only if it prints, and the program never. It leads to the place that it names or behind
itself. -/
theorem instruction_frame {s s' : Session} {i : Instruction} (issued : s.machine.Issues i)
    (taken : s.step? = some s') (sound : s'.machine.fault? = none) :
    InstructionFrame s.machine i s'.machine ∧
      ∃ text, s'.output = s.output ++ text ∧
        (i.op ≠ .print → i.op ≠ .printchar → text = "") := by
  rw [Session.step?_eq] at taken
  obtain ⟨⟨machine, events⟩, hstep, rfl⟩ := Option.map_eq_some_iff.mp taken
  have hmachine := (Session.foldl_observe_frame events { s with machine }).1
  dsimp only at sound ⊢
  rw [hmachine] at sound ⊢
  obtain ⟨change, plan, next, htext⟩ := (stepped_of_step hstep).executed_of_issues issued sound
  refine ⟨next ▸ issued.frame plan, ?_⟩
  by_cases kept : s.keepsOutput = true
  · refine ⟨_, Session.output_foldl_observe events kept, fun number char => ?_⟩
    rw [htext, (decides_of_plan plan).events_eq_nil number char]
    rfl
  · have unkept := Bool.eq_false_iff.mpr kept
    refine ⟨"", ?_, fun _ _ => rfl⟩
    rw [String.append_empty]
    exact Session.output_foldl_observe_unkept events unkept

/-- Stores the accumulator, which is also where the new address goes. -/
def allocateFromAccumulator : Instruction :=
  .memory .sw "$a0" 9 "$hp"

/-- Cell 0 is taken, cell 1 is free, and the heap cursor stands above both. -/
def allocatingSession : Session where
  machine :=
    { Machine.load 8 #[allocateFromAccumulator] with
      arena := (Arena.ofSize 8).put 0 (some 5)
      registers := ((Registers.ofSize 8).set .hp (some 3)).set .a0 (some 7)
      heap := 0
      live := [0] }
  output := "5\n"

/-- The store touches cell 1 and the accumulator; the heap cursor stays at 3. -/
theorem instruction_frame_allocation :
    allocatingSession.machine.Issues allocateFromAccumulator ∧
      allocatingSession.machine.touched? allocateFromAccumulator = some 1 ∧
      allocateFromAccumulator.destination? = some .a0 ∧
      ∃ s', allocatingSession.step? = some s' ∧ s'.machine.fault? = none ∧
        s'.machine.arena.cell? 1 = some { value := some 7, live := true } ∧
        s'.machine.registers.a0 = some 1 ∧ s'.machine.live = [1, 0] ∧ s'.machine.pc = 1 ∧
        InstructionFrame allocatingSession.machine allocateFromAccumulator s'.machine ∧
        ∃ text, s'.output = "5\n" ++ text ∧
          (allocateFromAccumulator.op ≠ .print → allocateFromAccumulator.op ≠ .printchar →
            text = "") := by
  have issued : allocatingSession.machine.Issues allocateFromAccumulator :=
    ⟨by decide, by decide, by decide⟩
  have hstep : (allocatingSession.step?.map fun s => (s.machine.fault?, s.machine.arena.cell? 1,
      s.machine.registers.a0, s.machine.live, s.machine.pc)) =
        some (none, some { value := some 7, live := true }, some 1, [1, 0], 1) := by decide +kernel
  obtain ⟨s', taken, hstate⟩ := Option.map_eq_some_iff.mp hstep
  simp only [Prod.mk.injEq] at hstate
  obtain ⟨sound, hcell, haccumulator, hlive, hpc⟩ := hstate
  obtain ⟨frame, hout⟩ := instruction_frame issued taken sound
  exact ⟨issued, by decide +kernel, by decide, s', taken, sound, hcell, haccumulator, hlive, hpc, frame,
    hout⟩

end RegisterMachine
