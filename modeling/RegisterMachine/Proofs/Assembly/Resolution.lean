import Mathlib.Data.List.Forall2
import RegisterMachine.Proofs.Assembly.Canonical

/-!
# Statements and their instructions

Resolving keeps order: the instructions of a program stand in the places of its statements, and the
tokens of an instruction in the places of the operands they come from. A target that is written as a
label becomes the index that the label stands for.
-/

set_option autoImplicit false

namespace RegisterMachine.Assembly

open Checks

section Operands

variable {known : Labels} {op : Opcode} {position : Nat}

/-- Each token comes from the operand in its place. -/
theorem getElem?_resolveOperands {pairs : List (OperandKind × Operand)}
    {resolved : List (String × Option Int64)}
    (h : resolveOperands known op position pairs = .ok resolved) {slot : Nat} {kind : OperandKind}
    {operand : Operand} (hslot : pairs[slot]? = some (kind, operand)) :
    ∃ entry, resolved[slot]? = some entry ∧
      resolveOperand known op (position + slot) kind operand.text = .ok entry := by
  induction pairs generalizing position resolved slot with
  | nil => simp at hslot
  | cons pair rest ih =>
    obtain ⟨firstKind, firstOperand⟩ := pair
    rw [resolveOperands] at h
    simp only [bind_eq_ok, pure_eq, Except.ok.injEq] at h
    obtain ⟨entry, hfirst, tail, htail, rfl⟩ := h
    cases slot with
    | zero =>
      obtain ⟨rfl, rfl⟩ := Prod.mk.inj (Option.some.inj hslot)
      exact ⟨entry, rfl, hfirst⟩
    | succ slot =>
      obtain ⟨found, hfound, hresolved⟩ := ih htail hslot
      refine ⟨found, hfound, ?_⟩
      rwa [show position + (slot + 1) = position + 1 + slot by omega]

/-- A label becomes the index that it stands for. -/
theorem resolveOperand_label {label token : String} {offset : Option Int64}
    (h : resolveOperand known op position .target (.name label) = .ok (token, offset)) :
    ∃ index, known.lookup label = some index ∧ token = Decimal.ofNat index := by
  cases hindex : known.lookup label with
  | none => simp [resolveOperand, hindex] at h
  | some index =>
    simp only [resolveOperand, hindex, Except.ok.injEq, Prod.mk.injEq] at h
    exact ⟨index, rfl, h.1.symm⟩

end Operands

theorem arg_ofArgs (op : Opcode) (args : List String) (offset : Int64) (slot : Fin 3) :
    (Instruction.ofArgs op args offset).arg slot = args.getD slot.val "" := by
  match slot with
  | 0 => rfl
  | 1 => rfl
  | 2 => rfl

theorem resolveStatement_op {known : Labels} {s : Statement} {i : Instruction}
    (h : resolveStatement known s = .ok i) : i.op = opcodeOf s.mnemonic := by
  obtain ⟨-, -, resolved, -, rfl⟩ := resolveStatement_eq_ok.mp h
  rfl

/-- The token in a slot comes from the operand of the statement in that slot. -/
theorem resolveStatement_slot {known : Labels} {s : Statement} {i : Instruction}
    (h : resolveStatement known s = .ok i) {slot : Fin 3} {kind : OperandKind}
    (hslot : (shape i.op)[slot.val]? = some kind) :
    ∃ operand offset, s.operands[slot.val]? = some operand ∧
      resolveOperand known i.op (slot.val + 1) kind operand.text = .ok (i.arg slot, offset) := by
  rw [resolveStatement_op h] at hslot ⊢
  obtain ⟨-, hlen, resolved, hresolved, rfl⟩ := resolveStatement_eq_ok.mp h
  generalize opcodeOf s.mnemonic = op at hlen hslot hresolved ⊢
  have hlt : slot.val < s.operands.length := by
    have := (List.getElem?_eq_some_iff.mp hslot).1
    omega
  have hpair : ((shape op).zip s.operands)[slot.val]? = some (kind, s.operands[slot.val]) :=
    List.getElem?_zip_eq_some.mpr ⟨hslot, List.getElem?_eq_getElem hlt⟩
  obtain ⟨⟨token, offset⟩, hentry, hoperand⟩ := getElem?_resolveOperands hresolved hpair
  refine ⟨s.operands[slot.val], offset, List.getElem?_eq_getElem hlt, ?_⟩
  rw [arg_ofArgs, List.getD_eq_getElem?_getD, List.getElem?_map, hentry, Nat.add_comm]
  exact hoperand

/-- **Every statement becomes one instruction, in order.** -/
theorem forall₂_resolveLines {known : Labels} {lines : List Line} {code : List Instruction}
    (h : resolveLines known lines = .ok code) :
    List.Forall₂ (fun s i => resolveStatement known s = .ok i) (statements lines) code := by
  induction lines generalizing code with
  | nil =>
    obtain rfl := Except.ok.inj h
    exact .nil
  | cons line rest ih =>
    cases line with
    | label position name => exact ih h
    | statement s =>
      unfold resolveLines at h
      split at h
      · cases h
      · next i hi =>
        simp only [bind_eq_ok, pure_eq, Except.ok.injEq] at h
        obtain ⟨tail, htail, rfl⟩ := h
        exact .cons hi (ih htail)

theorem exists_statement {known : Labels} {lines : List Line} {code : List Instruction}
    (h : resolveLines known lines = .ok code) {i : Instruction} (hi : i ∈ code) :
    ∃ s ∈ statements lines, resolveStatement known s = .ok i := by
  obtain ⟨n, hn, rfl⟩ := List.getElem_of_mem hi
  obtain ⟨hlen, hget⟩ := List.forall₂_iff_get.mp (forall₂_resolveLines h)
  have hn' : n < (statements lines).length := by omega
  exact ⟨(statements lines)[n], List.getElem_mem hn', hget n hn' hn⟩

end RegisterMachine.Assembly
