import RegisterMachine.Machine.Execution
import RegisterMachine.Proofs.Checks
import RegisterMachine.Proofs.Machine.Cells

/-!
# The instruction set as rules

`Decides` lists, instruction by instruction, the operands a change is decided from. It looks at
the registers and the arena only: the program counter, the heap frontier and the number of steps
have no influence on what an instruction does. Every change that `Machine.plan` decides on
follows one of the rules.
-/

set_option autoImplicit false

namespace RegisterMachine

open Checks

/-- The rules of the instruction set. A token that names no register and a number that cannot be
read leave an instruction without a rule. -/
inductive Decides (rs : Registers) (arena : Arena) (i : Instruction) : Change → Prop
  | push {r : Register} {sp : Int64} (op : i.op = .push)
      (source : Register.ofToken? i.arg1 = some r) (top : rs.sp = some sp)
      (room : arena.contains (sp - 1)) :
      Decides rs arena i (.push (sp - 1) ((rs.set .sp (some (sp - 1))).get r))
  | pop {sp : Int64} (op : i.op = .pop) (top : rs.sp = some sp) :
      Decides rs arena i (.assign .sp (some (sp + 1)))
  | load {rd base : Register} {b n : Int64} (op : i.op = .lw)
      (target : Register.ofToken? i.arg1 = some rd) (names : Register.ofToken? i.arg2 = some base)
      (holds : rs.get base = some b) (content : arena.read (b + i.offset) = .ok n) :
      Decides rs arena i (.assign rd (some n))
  | allocate {r : Register} {sp : Int64} {slot : Nat} (op : i.op = .sw)
      (source : Register.ofToken? i.arg1 = some r) (names : Register.ofToken? i.arg2 = some .hp)
      (top : rs.sp = some sp) (free : arena.firstFree? = some slot)
      (room : ¬ Int64.ofNat slot + 1 ≥ sp) :
      Decides rs arena i (.allocate (Int64.ofNat slot) (rs.get r))
  | store {r base : Register} {b : Int64} (op : i.op = .sw)
      (source : Register.ofToken? i.arg1 = some r) (names : Register.ofToken? i.arg2 = some base)
      (other : base ≠ .hp) (holds : rs.get base = some b)
      (room : arena.contains (b + i.offset)) :
      Decides rs arena i (.store (b + i.offset) (rs.get r))
  | loadImmediate {rd : Register} {n : Int64} (op : i.op = .li)
      (target : Register.ofToken? i.arg1 = some rd) (number : Decimal.readInt32? i.arg2 = some n) :
      Decides rs arena i (.assign rd (some n))
  | move {rd r : Register} (op : i.op = .mv) (target : Register.ofToken? i.arg1 = some rd)
      (source : Register.ofToken? i.arg2 = some r) :
      Decides rs arena i (.assign rd (rs.get r))
  | compute {rd r s : Register} {a b : Int64} {n : Int32}
      (op : i.op ∈ [Opcode.add, .sub, .mul, .div])
      (target : Register.ofToken? i.arg1 = some rd)
      (left : Register.ofToken? i.arg2 = some r) (first : rs.get r = some a)
      (right : Register.ofToken? i.arg3 = some s) (second : rs.get s = some b)
      (result : Machine.compute i.op a b = .ok n) :
      Decides rs arena i (.assign rd (some (widen n)))
  | computeImmediate {rd r : Register} {a b : Int64} {n : Int32}
      (op : i.op ∈ [Opcode.addi, .subi, .muli, .divi])
      (target : Register.ofToken? i.arg1 = some rd)
      (left : Register.ofToken? i.arg2 = some r) (first : rs.get r = some a)
      (number : Decimal.readInt32? i.arg3 = some b) (result : Machine.compute i.op a b = .ok n) :
      Decides rs arena i (.assign rd (some (widen n)))
  | conjoin {rd r s : Register} (op : i.op = .and) (target : Register.ofToken? i.arg1 = some rd)
      (left : Register.ofToken? i.arg2 = some r) (right : Register.ofToken? i.arg3 = some s) :
      Decides rs arena i
        (.assign rd (if rs.get r == some 1 && rs.get s == some 1 then some 1 else none))
  | disjoin {rd r s : Register} (op : i.op = .or) (target : Register.ofToken? i.arg1 = some rd)
      (left : Register.ofToken? i.arg2 = some r) (right : Register.ofToken? i.arg3 = some s) :
      Decides rs arena i
        (.assign rd (if rs.get r == some 1 || rs.get s == some 1 then some 1 else none))
  | negate {rd r : Register} (op : i.op = .not) (target : Register.ofToken? i.arg1 = some rd)
      (source : Register.ofToken? i.arg2 = some r) :
      Decides rs arena i (.assign rd (some (if rs.get r == some 1 then 0 else 1)))
  | release {r : Register} {a : Int64} (op : i.op = .del)
      (names : Register.ofToken? i.arg1 = some r) (holds : rs.get r = some a)
      (room : arena.contains a) :
      Decides rs arena i (.release a)
  | print {r : Register} {n : Int64} (op : i.op = .print)
      (names : Register.ofToken? i.arg1 = some r) (holds : rs.get r = some n) :
      Decides rs arena i (.print (Decimal.ofInt64 n ++ "\n"))
  | printChar {r : Register} {n : Int64} {c : Char} (op : i.op = .printchar)
      (names : Register.ofToken? i.arg1 = some r) (holds : rs.get r = some n)
      (char : Machine.character? n = some c) :
      Decides rs arena i (.print (String.singleton c ++ "\n"))
  | branchEqual {r s : Register} {target : Int64} (op : i.op = .beq)
      (left : Register.ofToken? i.arg1 = some r) (right : Register.ofToken? i.arg2 = some s)
      (number : Decimal.readInt32? i.arg3 = some target) (equal : rs.get r = rs.get s) :
      Decides rs arena i (.jump target)
  | passUnequal {r s : Register} {target : Int64} (op : i.op = .beq)
      (left : Register.ofToken? i.arg1 = some r) (right : Register.ofToken? i.arg2 = some s)
      (number : Decimal.readInt32? i.arg3 = some target) (unequal : ¬ rs.get r = rs.get s) :
      Decides rs arena i .nothing
  | branchLessEqual {r s : Register} {a b target : Int64} (op : i.op = .bleq)
      (left : Register.ofToken? i.arg1 = some r) (first : rs.get r = some a)
      (right : Register.ofToken? i.arg2 = some s) (second : rs.get s = some b)
      (number : Decimal.readInt32? i.arg3 = some target) (le : a ≤ b) :
      Decides rs arena i (.jump target)
  | passGreater {r s : Register} {a b target : Int64} (op : i.op = .bleq)
      (left : Register.ofToken? i.arg1 = some r) (first : rs.get r = some a)
      (right : Register.ofToken? i.arg2 = some s) (second : rs.get s = some b)
      (number : Decimal.readInt32? i.arg3 = some target) (gt : ¬ a ≤ b) :
      Decides rs arena i .nothing
  | branch {target : Int64} (op : i.op = .b) (number : Decimal.readInt32? i.arg1 = some target) :
      Decides rs arena i (.jump target)
  | call {target : Int64} (op : i.op = .jal)
      (number : Decimal.readInt32? i.arg1 = some target) :
      Decides rs arena i (.call target)
  | jumpRegister {r : Register} {target : Int64} (op : i.op = .jr)
      (names : Register.ofToken? i.arg1 = some r) (holds : rs.get r = some target) :
      Decides rs arena i (.jump target)
  | halt (op : i.op = .halt) : Decides rs arena i .nothing

/-! ### Operands -/

namespace Machine

theorem demand_eq_ok {α : Type} {check : Except Cause α} {a : α} :
    demand check = .ok a ↔ check = .ok a :=
  mapError_eq_ok

theorem ofToken?_empty : Register.ofToken? "" = none := by decide

theorem readInt32?_empty : Decimal.readInt32? "" = none := by decide

theorem operandRegister_eq_ok {i : Instruction} {slot : Fin 3} {r : Register} :
    operandRegister i slot = .ok r ↔ Register.ofToken? (i.arg slot) = some r := by
  unfold operandRegister operandToken
  by_cases h : i.arg slot = ""
  · simp [h, error_bind, ofToken?_empty]
  · rw [if_neg h, ok_bind]
    split <;> simp_all

theorem operandNumber_eq_ok {i : Instruction} {slot : Fin 3} {n : Int64} :
    operandNumber i slot = .ok n ↔ Decimal.readInt32? (i.arg slot) = some n := by
  unfold operandNumber operandToken
  by_cases h : i.arg slot = ""
  · simp [h, error_bind, readInt32?_empty]
  · rw [if_neg h, ok_bind]
    split <;> simp_all

theorem value_eq_ok {rs : Registers} {r : Register} {n : Int64} :
    rs.value r = .ok n ↔ rs.get r = some n := by
  unfold Registers.value
  split <;> simp_all

theorem operandWord_eq_ok {m : Machine} {i : Instruction} {slot : Fin 3} {w : Word} :
    m.operandWord i slot = .ok w ↔
      ∃ r, Register.ofToken? (i.arg slot) = some r ∧ m.registers.get r = w := by
  simp only [operandWord, bind_eq_ok, operandRegister_eq_ok, pure_eq, Except.ok.injEq]

theorem operandValue_eq_ok {m : Machine} {i : Instruction} {slot : Fin 3} {n : Int64} :
    m.operandValue i slot = .ok n ↔
      ∃ r, Register.ofToken? (i.arg slot) = some r ∧ m.registers.get r = some n := by
  simp only [operandValue, bind_eq_ok, operandRegister_eq_ok, value_eq_ok]

theorem operandTruth_eq_ok {m : Machine} {i : Instruction} {slot : Fin 3} {b : Bool} :
    m.operandTruth i slot = .ok b ↔
      ∃ r, Register.ofToken? (i.arg slot) = some r ∧ (m.registers.get r == some 1) = b := by
  simp only [operandTruth, bind_eq_ok, operandWord_eq_ok, pure_eq, Except.ok.injEq]
  constructor
  · rintro ⟨w, ⟨r, hr, rfl⟩, hb⟩
    exact ⟨r, hr, hb⟩
  · rintro ⟨r, hr, hb⟩
    exact ⟨_, ⟨r, hr, rfl⟩, hb⟩

/-! ### Rules for each instruction -/

section Rules

variable {m : Machine} {i : Instruction} {c : Change}

theorem planPush_rule (op : i.op = .push) (h : m.planPush i = .ok c) :
    Decides m.registers m.arena i c := by
  simp only [planPush, bind_eq_ok, demand_eq_ok, operandRegister_eq_ok, value_eq_ok] at h
  obtain ⟨r, source, sp, top, h⟩ := h
  by_cases room : m.arena.contains (sp - 1) = true
  · rw [if_pos room] at h
    cases h
    exact .push op source top room
  · rw [if_neg room] at h
    cases h

theorem planPop_rule (op : i.op = .pop) (h : m.planPop = .ok c) :
    Decides m.registers m.arena i c := by
  simp only [planPop, bind_eq_ok, demand_eq_ok, value_eq_ok] at h
  obtain ⟨sp, top, h⟩ := h
  cases h
  exact .pop op top

theorem planLoad_rule (op : i.op = .lw) (h : m.planLoad i = .ok c) :
    Decides m.registers m.arena i c := by
  simp only [planLoad, bind_eq_ok, demand_eq_ok, operandRegister_eq_ok, operandValue_eq_ok,
    mapError_eq_ok] at h
  obtain ⟨rd, target, b, ⟨base, names, holds⟩, n, content, h⟩ := h
  cases h
  exact .load op target names holds content

theorem planStore_rule (op : i.op = .sw) (h : m.planStore i = .ok c) :
    Decides m.registers m.arena i c := by
  simp only [planStore, planAllocate, bind_eq_ok, demand_eq_ok, operandRegister_eq_ok,
    operandWord_eq_ok] at h
  obtain ⟨w, ⟨r, source, rfl⟩, base, names, h⟩ := h
  by_cases hp : base = .hp
  · subst hp
    simp only [if_pos, bind_eq_ok, demand_eq_ok, value_eq_ok, mapError_eq_ok,
      Arena.firstFree_eq_ok] at h
    obtain ⟨sp, top, slot, free, h⟩ := h
    by_cases room : Int64.ofNat slot + 1 ≥ sp
    · rw [if_pos room] at h
      cases h
    · rw [if_neg room] at h
      cases h
      exact .allocate op source names top free room
  · rw [if_neg hp] at h
    simp only [bind_eq_ok, demand_eq_ok, value_eq_ok] at h
    obtain ⟨b, holds, h⟩ := h
    by_cases room : m.arena.contains (b + i.offset) = true
    · rw [if_pos room] at h
      cases h
      exact .store op source names hp holds room
    · rw [if_neg room] at h
      cases h

theorem planArithmetic_rule (op : i.op ∈ [Opcode.add, .sub, .mul, .div])
    (h : m.planArithmetic i false = .ok c) : Decides m.registers m.arena i c := by
  simp only [planArithmetic, bind_eq_ok, demand_eq_ok, operandRegister_eq_ok,
    operandValue_eq_ok] at h
  obtain ⟨rd, target, a, ⟨r, left, first⟩, b, hb, n, result, h⟩ := h
  obtain ⟨s, right, second⟩ := operandValue_eq_ok.mp hb
  cases h
  exact .compute op target left first right second result

theorem planArithmetic_immediate_rule (op : i.op ∈ [Opcode.addi, .subi, .muli, .divi])
    (h : m.planArithmetic i true = .ok c) : Decides m.registers m.arena i c := by
  simp only [planArithmetic, bind_eq_ok, demand_eq_ok, operandRegister_eq_ok,
    operandValue_eq_ok] at h
  obtain ⟨rd, target, a, ⟨r, left, first⟩, b, hb, n, result, h⟩ := h
  cases h
  exact .computeImmediate op target left first (operandNumber_eq_ok.mp hb) result

theorem planConnective_rule {f : Bool → Bool → Bool} (h : m.planConnective i f = .ok c) :
    ∃ rd r s, Register.ofToken? i.arg1 = some rd ∧ Register.ofToken? i.arg2 = some r ∧
      Register.ofToken? i.arg3 = some s ∧
      c = .assign rd
        (if f (m.registers.get r == some 1) (m.registers.get s == some 1) then some 1
          else none) := by
  simp only [planConnective, bind_eq_ok, demand_eq_ok, operandRegister_eq_ok,
    operandTruth_eq_ok] at h
  obtain ⟨rd, target, a, ⟨r, left, rfl⟩, b, ⟨s, right, rfl⟩, h⟩ := h
  cases h
  exact ⟨rd, r, s, target, left, right, rfl⟩

theorem planDelete_rule (op : i.op = .del) (h : m.planDelete i = .ok c) :
    Decides m.registers m.arena i c := by
  simp only [planDelete, bind_eq_ok, demand_eq_ok, operandValue_eq_ok] at h
  obtain ⟨a, ⟨r, names, holds⟩, h⟩ := h
  by_cases room : m.arena.contains a = true
  · rw [if_pos room] at h
    cases h
    exact .release op names holds room
  · rw [if_neg room] at h
    cases h

theorem planPrintChar_rule (op : i.op = .printchar) (h : m.planPrintChar i = .ok c) :
    Decides m.registers m.arena i c := by
  simp only [planPrintChar, bind_eq_ok, demand_eq_ok, operandValue_eq_ok] at h
  obtain ⟨n, ⟨r, names, holds⟩, h⟩ := h
  cases hc : character? n with
  | none => rw [hc] at h; cases h
  | some char =>
    rw [hc] at h
    cases h
    exact .printChar op names holds hc

theorem planBranchEqual_rule (op : i.op = .beq) (h : m.planBranchEqual i = .ok c) :
    Decides m.registers m.arena i c := by
  simp only [planBranchEqual, bind_eq_ok, demand_eq_ok, operandWord_eq_ok,
    operandNumber_eq_ok] at h
  obtain ⟨_, ⟨r, left, rfl⟩, _, ⟨s, right, rfl⟩, target, number, h⟩ := h
  by_cases he : m.registers.get r = m.registers.get s
  · rw [if_pos he] at h
    cases h
    exact .branchEqual op left right number he
  · rw [if_neg he] at h
    cases h
    exact .passUnequal op left right number he

theorem planBranchLessEqual_rule (op : i.op = .bleq) (h : m.planBranchLessEqual i = .ok c) :
    Decides m.registers m.arena i c := by
  simp only [planBranchLessEqual, bind_eq_ok, demand_eq_ok, operandValue_eq_ok,
    operandNumber_eq_ok] at h
  obtain ⟨a, ⟨r, left, first⟩, b, ⟨s, right, second⟩, target, number, h⟩ := h
  by_cases hle : a ≤ b
  · rw [if_pos hle] at h
    cases h
    exact .branchLessEqual op left first right second number hle
  · rw [if_neg hle] at h
    cases h
    exact .passGreater op left first right second number hle

/-- Every change that is decided on follows a rule. -/
theorem decides_of_plan (h : m.plan i = .ok c) : Decides m.registers m.arena i c := by
  unfold plan at h
  cases op : i.op <;> rw [op] at h
  case push => exact planPush_rule op h
  case pop => exact planPop_rule op h
  case lw => exact planLoad_rule op h
  case sw => exact planStore_rule op h
  case li =>
    simp only [planLoadImmediate, bind_eq_ok, demand_eq_ok, operandRegister_eq_ok,
      operandNumber_eq_ok] at h
    obtain ⟨rd, target, n, number, h⟩ := h
    cases h
    exact .loadImmediate op target number
  case mv =>
    simp only [planMove, bind_eq_ok, demand_eq_ok, operandRegister_eq_ok, operandWord_eq_ok] at h
    obtain ⟨rd, target, _, ⟨r, source, rfl⟩, h⟩ := h
    cases h
    exact .move op target source
  case add | sub | mul | div => exact planArithmetic_rule (by simp [op]) h
  case addi | subi | muli | divi => exact planArithmetic_immediate_rule (by simp [op]) h
  case and =>
    obtain ⟨rd, r, s, target, left, right, rfl⟩ := planConnective_rule h
    exact .conjoin op target left right
  case or =>
    obtain ⟨rd, r, s, target, left, right, rfl⟩ := planConnective_rule h
    exact .disjoin op target left right
  case not =>
    simp only [planNot, bind_eq_ok, demand_eq_ok, operandRegister_eq_ok, operandTruth_eq_ok] at h
    obtain ⟨rd, target, _, ⟨r, source, rfl⟩, h⟩ := h
    cases h
    exact .negate op target source
  case del => exact planDelete_rule op h
  case print =>
    simp only [planPrint, bind_eq_ok, demand_eq_ok, operandValue_eq_ok] at h
    obtain ⟨n, ⟨r, names, holds⟩, h⟩ := h
    cases h
    exact .print op names holds
  case printchar => exact planPrintChar_rule op h
  case beq => exact planBranchEqual_rule op h
  case bleq => exact planBranchLessEqual_rule op h
  case b =>
    simp only [planBranch, bind_eq_ok, demand_eq_ok, operandNumber_eq_ok] at h
    obtain ⟨target, number, h⟩ := h
    cases h
    exact .branch op number
  case jal =>
    simp only [planCall, bind_eq_ok, demand_eq_ok, operandNumber_eq_ok] at h
    obtain ⟨target, number, h⟩ := h
    cases h
    exact .call op number
  case jr =>
    simp only [planReturn, bind_eq_ok, demand_eq_ok, operandValue_eq_ok] at h
    obtain ⟨target, ⟨r, names, holds⟩, h⟩ := h
    cases h
    exact .jumpRegister op names holds
  case halt => cases h; exact .halt op
  case invalid | undefined => cases h

end Rules

end Machine

end RegisterMachine
