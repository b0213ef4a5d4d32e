import RegisterMachine.Assembly.Program
import RegisterMachine.Proofs.Machine.Decision

/-!
# Why an instruction is refused

`Refuses` lists the reasons for which no change is decided on. The slots in which an instruction
reads a register or a number are those of its shape, which is also what the assembler checks
statements against: the two descriptions of the operands agree slot by slot.
-/

set_option autoImplicit false

namespace RegisterMachine

open Checks Machine
open Assembly (shape)

/-- The shape has a register in this slot, alone or as the base of an address. -/
def ReadsRegister (op : Opcode) (slot : Fin 3) : Prop :=
  (shape op)[slot.val]? = some .register ∨ (shape op)[slot.val]? = some .address

/-- The shape has a number in this slot, as an immediate or as a target. -/
def ReadsNumber (op : Opcode) (slot : Fin 3) : Prop :=
  (shape op)[slot.val]? = some .immediate ∨ (shape op)[slot.val]? = some .target

instance (op : Opcode) (slot : Fin 3) : Decidable (ReadsRegister op slot) :=
  inferInstanceAs (Decidable (_ ∨ _))

instance (op : Opcode) (slot : Fin 3) : Decidable (ReadsNumber op slot) :=
  inferInstanceAs (Decidable (_ ∨ _))

/-- The reasons for a refusal. -/
inductive Refuses (rs : Registers) (arena : Arena) (i : Instruction) : Obstacle → Prop
  | opcode (unknown : i.op.isValid = false) : Refuses rs arena i (.fault (.unknownOpcode i.op))
  | register {slot : Fin 3} {cause : Cause} (reads : ReadsRegister i.op slot)
      (unread : operandRegister i slot = .error cause) : Refuses rs arena i (.fault cause)
  | number {slot : Fin 3} {cause : Cause} (reads : ReadsNumber i.op slot)
      (unread : operandNumber i slot = .error cause) : Refuses rs arena i (.fault cause)
  | absent {r : Register} (empty : rs.get r = none) :
      Refuses rs arena i (.fault (.absentRegister r))
  | unreadable {a : Int64} {e : ArenaError} (op : i.op = .lw) (unread : arena.read a = .error e) :
      Refuses rs arena i (.fault (.memory e))
  | outside {a : Int64} (op : i.op = .sw ∨ i.op = .del) (out : ¬ arena.contains a) :
      Refuses rs arena i (.fault (.memory (arena.outside a)))
  | full {e : ArenaError} (op : i.op = .sw) (none : arena.firstFree = .error e) :
      Refuses rs arena i (.fault (.memory e))
  | crowded {index sp : Int64} (op : i.op = .sw) :
      Refuses rs arena i (.fault (.allocationCollision index sp))
  | zero (op : i.op = .div ∨ i.op = .divi) :
      Refuses rs arena i (.fault (.condition .divisionByZero))
  | trap (op : i.op = .div ∨ i.op = .divi) : Refuses rs arena i .trap
  | character {r : Register} {n : Int64} (op : i.op = .printchar)
      (names : Register.ofToken? i.arg1 = some r) (holds : rs.get r = some n)
      (none : character? n = none) : Refuses rs arena i (.fault (.notCharacter n))
  | overrun {sp : Int64} (op : i.op = .push) (top : rs.sp = some sp)
      (out : ¬ arena.contains (sp - 1)) :
      Refuses rs arena i (.overrun (sp - 1) (arena.outside (sp - 1)))

namespace Refuses

variable {m : Machine} {i : Instruction} {o : Obstacle}

theorem demand_eq_error {α : Type} {check : Except Cause α} {o : Obstacle} :
    demand check = .error o ↔ ∃ cause, check = .error cause ∧ .fault cause = o :=
  mapError_eq_error

/-- A register that must hold a number. -/
theorem of_value {r : Register} (h : demand (m.registers.value r) = .error o) :
    Refuses m.registers m.arena i o := by
  obtain ⟨cause, hc, rfl⟩ := demand_eq_error.mp h
  unfold Registers.value at hc
  split at hc
  · cases hc
  · next empty =>
    cases hc
    exact .absent empty

theorem of_register {slot : Fin 3} (reads : ReadsRegister i.op slot)
    (h : demand (operandRegister i slot) = .error o) : Refuses m.registers m.arena i o := by
  obtain ⟨cause, hc, rfl⟩ := demand_eq_error.mp h
  exact .register reads hc

theorem of_number {slot : Fin 3} (reads : ReadsNumber i.op slot)
    (h : demand (operandNumber i slot) = .error o) : Refuses m.registers m.arena i o := by
  obtain ⟨cause, hc, rfl⟩ := demand_eq_error.mp h
  exact .number reads hc

theorem of_operandValue {slot : Fin 3} (reads : ReadsRegister i.op slot)
    (h : demand (m.operandValue i slot) = .error o) : Refuses m.registers m.arena i o := by
  obtain ⟨cause, hc, rfl⟩ := demand_eq_error.mp h
  rcases bind_eq_error.mp hc with hr | ⟨r, -, hv⟩
  · exact .register reads hr
  · exact of_value (demand_eq_error.mpr ⟨cause, hv, rfl⟩)

theorem of_operandWord {slot : Fin 3} (reads : ReadsRegister i.op slot)
    (h : demand (m.operandWord i slot) = .error o) : Refuses m.registers m.arena i o := by
  obtain ⟨cause, hc, rfl⟩ := demand_eq_error.mp h
  rcases bind_eq_error.mp hc with hr | ⟨r, -, hv⟩
  · exact .register reads hr
  · cases hv

theorem of_operandTruth {slot : Fin 3} (reads : ReadsRegister i.op slot)
    (h : demand (m.operandTruth i slot) = .error o) : Refuses m.registers m.arena i o := by
  obtain ⟨cause, hc, rfl⟩ := demand_eq_error.mp h
  rcases bind_eq_error.mp hc with hr | ⟨r, -, hv⟩
  · exact of_operandWord reads (demand_eq_error.mpr ⟨cause, hr, rfl⟩)
  · cases hv

/-! ### Reasons for each instruction -/

theorem of_planPush (op : i.op = .push) (h : m.planPush i = .error o) :
    Refuses m.registers m.arena i o := by
  rcases bind_eq_error.mp h with h | ⟨r, -, h⟩
  · exact of_register (by rw [op]; decide) h
  rcases bind_eq_error.mp h with h | ⟨sp, top, h⟩
  · exact of_value h
  by_cases room : m.arena.contains (sp - 1) = true
  · rw [if_pos room] at h
    cases h
  · rw [if_neg room] at h
    cases h
    exact .overrun op (value_eq_ok.mp (demand_eq_ok.mp top)) room

theorem of_planPop (h : m.planPop = .error o) : Refuses m.registers m.arena i o := by
  rcases bind_eq_error.mp h with h | ⟨sp, -, h⟩
  · exact of_value h
  · cases h

theorem of_planLoad (op : i.op = .lw) (h : m.planLoad i = .error o) :
    Refuses m.registers m.arena i o := by
  rcases bind_eq_error.mp h with h | ⟨rd, -, h⟩
  · exact of_register (by rw [op]; decide) h
  rcases bind_eq_error.mp h with h | ⟨base, -, h⟩
  · exact of_operandValue (by rw [op]; decide) h
  rcases bind_eq_error.mp h with h | ⟨n, -, h⟩
  · obtain ⟨cause, hc, rfl⟩ := demand_eq_error.mp h
    obtain ⟨e, he, rfl⟩ := mapError_eq_error.mp hc
    exact .unreadable op he
  · cases h

theorem of_planAllocate {w : Word} (op : i.op = .sw) (h : m.planAllocate w = .error o) :
    Refuses m.registers m.arena i o := by
  rcases bind_eq_error.mp h with h | ⟨sp, -, h⟩
  · exact of_value h
  rcases bind_eq_error.mp h with h | ⟨slot, -, h⟩
  · obtain ⟨cause, hc, rfl⟩ := demand_eq_error.mp h
    obtain ⟨e, he, rfl⟩ := mapError_eq_error.mp hc
    exact .full op he
  by_cases room : Int64.ofNat slot + 1 ≥ sp
  · rw [if_pos room] at h
    cases h
    exact .crowded op
  · rw [if_neg room] at h
    cases h

theorem of_planStore (op : i.op = .sw) (h : m.planStore i = .error o) :
    Refuses m.registers m.arena i o := by
  rcases bind_eq_error.mp h with h | ⟨w, -, h⟩
  · exact of_operandWord (by rw [op]; decide) h
  rcases bind_eq_error.mp h with h | ⟨base, -, h⟩
  · exact of_register (by rw [op]; decide) h
  by_cases hp : base = .hp
  · rw [if_pos hp] at h
    exact of_planAllocate op h
  rw [if_neg hp] at h
  rcases bind_eq_error.mp h with h | ⟨b, -, h⟩
  · exact of_value h
  by_cases room : m.arena.contains (b + i.offset) = true
  · rw [if_pos room] at h
    cases h
  · rw [if_neg room] at h
    cases h
    exact .outside (.inl op) room

theorem of_planLoadImmediate (op : i.op = .li) (h : planLoadImmediate i = .error o) :
    Refuses m.registers m.arena i o := by
  rcases bind_eq_error.mp h with h | ⟨rd, -, h⟩
  · exact of_register (by rw [op]; decide) h
  rcases bind_eq_error.mp h with h | ⟨n, -, h⟩
  · exact of_number (by rw [op]; decide) h
  · cases h

theorem of_planMove (op : i.op = .mv) (h : m.planMove i = .error o) :
    Refuses m.registers m.arena i o := by
  rcases bind_eq_error.mp h with h | ⟨rd, -, h⟩
  · exact of_register (by rw [op]; decide) h
  rcases bind_eq_error.mp h with h | ⟨w, -, h⟩
  · exact of_operandWord (by rw [op]; decide) h
  · cases h

theorem of_quotient {a b : Int64} (op : i.op = .div ∨ i.op = .divi)
    (h : quotient a b = .error o) : Refuses m.registers m.arena i o := by
  unfold quotient at h
  split at h
  · cases h
    exact .zero op
  · split at h
    · cases h
      exact .trap op
    · cases h

/-- Only a division can be refused for the numbers it is given. -/
theorem of_compute {a b : Int64}
    (op : i.op ∈ [Opcode.add, .sub, .mul, .div] ∨ i.op ∈ [Opcode.addi, .subi, .muli, .divi])
    (h : compute i.op a b = .error o) : Refuses m.registers m.arena i o := by
  simp only [List.mem_cons, List.not_mem_nil, or_false] at op
  rcases op with (op | op | op | op) | (op | op | op | op) <;> rw [op] at h
  case inl.inr.inr.inr => exact of_quotient (.inl op) h
  case inr.inr.inr.inr => exact of_quotient (.inr op) h
  all_goals cases h

theorem of_planArithmetic (op : i.op ∈ [Opcode.add, .sub, .mul, .div])
    (h : m.planArithmetic i false = .error o) : Refuses m.registers m.arena i o := by
  have reads : ∀ slot, ReadsRegister i.op slot := by
    simp only [List.mem_cons, List.not_mem_nil, or_false] at op
    rcases op with op | op | op | op <;> rw [op] <;> decide
  rcases bind_eq_error.mp h with h | ⟨rd, -, h⟩
  · exact of_register (reads 0) h
  rcases bind_eq_error.mp h with h | ⟨a, -, h⟩
  · exact of_operandValue (reads 1) h
  rcases bind_eq_error.mp h with h | ⟨b, -, h⟩
  · exact of_operandValue (reads 2) h
  rcases bind_eq_error.mp h with h | ⟨n, -, h⟩
  · exact of_compute (.inl op) h
  · cases h

theorem of_planArithmetic_immediate (op : i.op ∈ [Opcode.addi, .subi, .muli, .divi])
    (h : m.planArithmetic i true = .error o) : Refuses m.registers m.arena i o := by
  have reads : ReadsRegister i.op 0 ∧ ReadsRegister i.op 1 ∧ ReadsNumber i.op 2 := by
    simp only [List.mem_cons, List.not_mem_nil, or_false] at op
    rcases op with op | op | op | op <;> rw [op] <;> decide
  rcases bind_eq_error.mp h with h | ⟨rd, -, h⟩
  · exact of_register reads.1 h
  rcases bind_eq_error.mp h with h | ⟨a, -, h⟩
  · exact of_operandValue reads.2.1 h
  rcases bind_eq_error.mp h with h | ⟨b, -, h⟩
  · exact of_number reads.2.2 h
  rcases bind_eq_error.mp h with h | ⟨n, -, h⟩
  · exact of_compute (.inr op) h
  · cases h

theorem of_planConnective {f : Bool → Bool → Bool} (reads : ∀ slot, ReadsRegister i.op slot)
    (h : m.planConnective i f = .error o) : Refuses m.registers m.arena i o := by
  rcases bind_eq_error.mp h with h | ⟨rd, -, h⟩
  · exact of_register (reads 0) h
  rcases bind_eq_error.mp h with h | ⟨a, -, h⟩
  · exact of_operandTruth (reads 1) h
  rcases bind_eq_error.mp h with h | ⟨b, -, h⟩
  · exact of_operandTruth (reads 2) h
  · cases h

theorem of_planNot (op : i.op = .not) (h : m.planNot i = .error o) :
    Refuses m.registers m.arena i o := by
  rcases bind_eq_error.mp h with h | ⟨rd, -, h⟩
  · exact of_register (by rw [op]; decide) h
  rcases bind_eq_error.mp h with h | ⟨a, -, h⟩
  · exact of_operandTruth (by rw [op]; decide) h
  · cases h

theorem of_planDelete (op : i.op = .del) (h : m.planDelete i = .error o) :
    Refuses m.registers m.arena i o := by
  rcases bind_eq_error.mp h with h | ⟨a, -, h⟩
  · exact of_operandValue (by rw [op]; decide) h
  by_cases room : m.arena.contains a = true
  · rw [if_pos room] at h
    cases h
  · rw [if_neg room] at h
    cases h
    exact .outside (.inr op) room

theorem of_planPrint (op : i.op = .print) (h : m.planPrint i = .error o) :
    Refuses m.registers m.arena i o := by
  rcases bind_eq_error.mp h with h | ⟨n, -, h⟩
  · exact of_operandValue (by rw [op]; decide) h
  · cases h

theorem of_planPrintChar (op : i.op = .printchar) (h : m.planPrintChar i = .error o) :
    Refuses m.registers m.arena i o := by
  rcases bind_eq_error.mp h with h | ⟨n, hn, h⟩
  · exact of_operandValue (by rw [op]; decide) h
  obtain ⟨r, names, holds⟩ := operandValue_eq_ok.mp (demand_eq_ok.mp hn)
  cases none : character? n with
  | some c => rw [none] at h; cases h
  | none =>
    rw [none] at h
    cases h
    exact .character op names holds none

theorem of_planBranchEqual (op : i.op = .beq) (h : m.planBranchEqual i = .error o) :
    Refuses m.registers m.arena i o := by
  rcases bind_eq_error.mp h with h | ⟨a, -, h⟩
  · exact of_operandWord (by rw [op]; decide) h
  rcases bind_eq_error.mp h with h | ⟨b, -, h⟩
  · exact of_operandWord (by rw [op]; decide) h
  rcases bind_eq_error.mp h with h | ⟨target, -, h⟩
  · exact of_number (by rw [op]; decide) h
  · cases h

theorem of_planBranchLessEqual (op : i.op = .bleq) (h : m.planBranchLessEqual i = .error o) :
    Refuses m.registers m.arena i o := by
  rcases bind_eq_error.mp h with h | ⟨a, -, h⟩
  · exact of_operandValue (by rw [op]; decide) h
  rcases bind_eq_error.mp h with h | ⟨b, -, h⟩
  · exact of_operandValue (by rw [op]; decide) h
  rcases bind_eq_error.mp h with h | ⟨target, -, h⟩
  · exact of_number (by rw [op]; decide) h
  · cases h

/-- A branch or a call without a condition. -/
theorem of_target {next : Int64 → Except Obstacle Change} (total : ∀ n, ∃ c, next n = .ok c)
    (op : i.op = .b ∨ i.op = .jal) (h : (demand (operandNumber i 0) >>= next) = .error o) :
    Refuses m.registers m.arena i o := by
  rcases bind_eq_error.mp h with h | ⟨target, -, h⟩
  · exact of_number (by rcases op with op | op <;> rw [op] <;> decide) h
  · obtain ⟨c, hc⟩ := total target
    rw [hc] at h
    cases h

theorem of_planReturn (op : i.op = .jr) (h : m.planReturn i = .error o) :
    Refuses m.registers m.arena i o := by
  rcases bind_eq_error.mp h with h | ⟨target, -, h⟩
  · exact of_operandValue (by rw [op]; decide) h
  · cases h

/-- **Every refusal has one of the reasons.** -/
theorem of_plan (h : m.plan i = .error o) : Refuses m.registers m.arena i o := by
  unfold plan at h
  cases op : i.op <;> rw [op] at h
  case push => exact of_planPush op h
  case pop => exact of_planPop h
  case lw => exact of_planLoad op h
  case sw => exact of_planStore op h
  case li => exact of_planLoadImmediate op h
  case mv => exact of_planMove op h
  case add | sub | mul | div => exact of_planArithmetic (by simp [op]) h
  case addi | subi | muli | divi => exact of_planArithmetic_immediate (by simp [op]) h
  case and | or => exact of_planConnective (by rw [op]; decide) h
  case not => exact of_planNot op h
  case del => exact of_planDelete op h
  case print => exact of_planPrint op h
  case printchar => exact of_planPrintChar op h
  case beq => exact of_planBranchEqual op h
  case bleq => exact of_planBranchLessEqual op h
  case b => exact of_target (fun n => ⟨_, rfl⟩) (.inl op) h
  case jal => exact of_target (fun n => ⟨_, rfl⟩) (.inr op) h
  case jr => exact of_planReturn op h
  case halt => cases h
  case invalid | undefined =>
    cases h
    rw [← op]
    exact .opcode (by rw [op]; rfl)

end Refuses

end RegisterMachine
