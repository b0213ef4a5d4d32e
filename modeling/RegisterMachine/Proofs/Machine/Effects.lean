import RegisterMachine.Proofs.Machine.Refusal

/-!
# What an instruction writes and where it leads

An instruction writes at most one register, which can be read off its operands, and it goes on
behind itself unless it jumps. A jump leads to the number in the target slot of the instruction or,
for a return, to the number in a register.
-/

set_option autoImplicit false

namespace RegisterMachine

open Machine
open Assembly (shape)

/-- The register that a change writes. -/
def Change.destination? : Change → Option Register
  | .assign r _ => some r
  | .push .. => some .sp
  | .allocate .. => some .a0
  | .call _ => some .ra
  | _ => none

/-- The destination register of an instruction. A store has one only if it allocates. -/
def Instruction.destination? (i : Instruction) : Option Register :=
  match i.op with
  | .push | .pop => some .sp
  | .lw | .li | .mv | .add | .sub | .mul | .div | .addi | .subi | .muli | .divi | .and | .or
  | .not => Register.ofToken? i.arg1
  | .sw => if Register.ofToken? i.arg2 = some .hp then some .a0 else none
  | .jal => some .ra
  | _ => none

/-- Where a change makes the machine go on, if not behind the instruction. -/
def Change.target? : Change → Option Int64
  | .jump target => some target
  | .call target => some target
  | _ => none

namespace Machine

variable (m : Machine) (change : Change)

/-- Only the destination register is written. -/
theorem get_registers_apply {r : Register} (h : change.destination? ≠ some r) :
    (m.apply change).registers.get r = m.registers.get r := by
  have hset : ∀ {s : Register} {w : Word}, some s ≠ some r →
      (m.registers.set s w).get r = m.registers.get r := by
    intro s w hne
    rw [Registers.get_set, if_neg]
    rintro rfl
    exact hne rfl
  cases change with
  | assign s w => exact hset h
  | push a w => exact hset h
  | allocate a w => exact hset h
  | call target => exact hset h
  | release a =>
    rw [apply, forget]
    split <;> rfl
  | nothing | store | print | jump => rfl

theorem pc_apply : (m.apply change).pc = change.target?.getD m.pc := by
  cases change with
  | release a =>
    rw [apply, forget]
    split <;> rfl
  | _ => rfl

end Machine

namespace Decides

variable {rs : Registers} {arena : Arena} {i : Instruction} {change : Change}

/-- **The destination of an instruction is that of the change it makes.** -/
theorem destination?_eq (h : Decides rs arena i change) :
    change.destination? = i.destination? := by
  unfold Instruction.destination?
  cases h with
  | push op => rw [op]; rfl
  | pop op => rw [op]; rfl
  | load op target => rw [op]; exact target.symm
  | allocate op source names => rw [op]; exact (if_pos names).symm
  | store op source names other =>
    rw [op, names]
    exact (if_neg fun he => other (Option.some.inj he)).symm
  | loadImmediate op target => rw [op]; exact target.symm
  | move op target => rw [op]; exact target.symm
  | compute op target | computeImmediate op target =>
    simp only [List.mem_cons, List.not_mem_nil, or_false] at op
    rcases op with op | op | op | op <;> rw [op] <;> exact target.symm
  | conjoin op target => rw [op]; exact target.symm
  | disjoin op target => rw [op]; exact target.symm
  | negate op target => rw [op]; exact target.symm
  | call op => rw [op]; rfl
  | release op | print op | printChar op | branchEqual op | passUnequal op | branchLessEqual op
  | passGreater op | branch op | jumpRegister op | halt op => rw [op]; rfl

/-- **A jump leads to the number in the target slot**, or to the one in the register of a return. -/
theorem target?_eq (h : Decides rs arena i change) {t : Int64} (ht : change.target? = some t) :
    (∃ slot : Fin 3, (shape i.op)[slot.val]? = some .target ∧
        Decimal.readInt32? (i.arg slot) = some t) ∨
      i.op = .jr ∧ ∃ r, Register.ofToken? i.arg1 = some r ∧ rs.get r = some t := by
  cases h with
  | branchEqual op left right number equal =>
    obtain rfl := Option.some.inj ht
    exact .inl ⟨2, by rw [op]; rfl, number⟩
  | branchLessEqual op left first right second number le =>
    obtain rfl := Option.some.inj ht
    exact .inl ⟨2, by rw [op]; rfl, number⟩
  | branch op number =>
    obtain rfl := Option.some.inj ht
    exact .inl ⟨0, by rw [op]; rfl, number⟩
  | call op number =>
    obtain rfl := Option.some.inj ht
    exact .inl ⟨0, by rw [op]; rfl, number⟩
  | jumpRegister op names holds =>
    obtain rfl := Option.some.inj ht
    exact .inr ⟨op, _, names, holds⟩
  | _ => cases ht

end Decides

end RegisterMachine
