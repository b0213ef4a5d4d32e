import RegisterMachine.Assembly.Program
import RegisterMachine.Proofs.Assembly.Parsing
import RegisterMachine.Proofs.Text.Decimal

/-!
# Canonical instructions

An instruction is canonical when every slot of its shape holds the one token that the assembler
writes for an operand of that kind, and nothing else is filled in. The assembler produces
canonical instructions only. A label may stand for any instruction index, so this needs a program
whose indices are signed 32-bit numbers.
-/

set_option autoImplicit false

namespace RegisterMachine.Assembly

open Checks
open Decimal (FitsInt32)

/-- The token that a slot of this kind holds. A slot outside the shape is empty. -/
def SlotFits : Option OperandKind → String → Prop
  | some .register, token => ∃ r : Register, token = r.name
  | some .address, token => ∃ r : Register, token = r.name
  | some .immediate, token => ∃ n, FitsInt32 n ∧ token = Decimal.ofInt n
  | some .target, token => ∃ n, FitsInt32 n ∧ token = Decimal.ofInt n
  | none, token => token = ""

structure Canonical (i : Instruction) : Prop where
  valid : i.op.isValid = true
  slots : ∀ slot : Fin 3, SlotFits (shape i.op)[slot.val]? (i.arg slot)
  offset : if i.hasAddress then FitsInt32 i.offset.toInt else i.offset = 0

theorem Canonical.of_slots {i : Instruction} (valid : i.op.isValid = true)
    (first : SlotFits (shape i.op)[0]? i.arg1) (second : SlotFits (shape i.op)[1]? i.arg2)
    (third : SlotFits (shape i.op)[2]? i.arg3)
    (offset : if i.hasAddress then FitsInt32 i.offset.toInt else i.offset = 0) : Canonical i := by
  refine ⟨valid, fun slot => ?_, offset⟩
  match slot with
  | 0 => exact first
  | 1 => exact second
  | 2 => exact third

/-- The statements of a listing, in order. -/
def statements (lines : List Line) : List Statement :=
  lines.filterMap fun
    | .statement s => some s
    | .label .. => none

theorem shape_length_le (op : Opcode) : (shape op).length ≤ 3 := by
  cases op <;> simp [shape]

/-- Only loads and stores have an address. -/
theorem address_mem_shape (i : Instruction) :
    OperandKind.address ∈ shape i.op ↔ i.hasAddress = true := by
  unfold Instruction.hasAddress
  cases i.op <;> simp [shape]

/-! ### Labels -/

/-- Every label stands for at most the number of statements. -/
theorem collectLabels_le {lines : List Line} {next : Nat} {known found : Labels}
    (hknown : ∀ label index, known.lookup label = some index → index ≤ next)
    (h : collectLabels lines next known = .ok found) {label : String} {index : Nat}
    (hl : found.lookup label = some index) : index ≤ next + (statements lines).length := by
  induction lines generalizing next known with
  | nil =>
    obtain rfl := Except.ok.inj h
    exact Nat.le_add_right_of_le (hknown label index hl)
  | cons line rest ih =>
    cases line with
    | statement s =>
      have hknown' : ∀ l i, known.lookup l = some i → i ≤ next + 1 :=
        fun l i hi => Nat.le_succ_of_le (hknown l i hi)
      have hle := ih hknown' h
      change index ≤ next + ((statements rest).length + 1)
      omega
    | label position name =>
      unfold collectLabels at h
      split at h
      · cases h
      · refine ih ?_ h
        intro l i hi
        rw [List.lookup_append] at hi
        rcases Option.or_eq_some_iff.mp hi with hi | ⟨-, hi⟩
        · exact hknown l i hi
        · simp only [List.lookup_cons, List.lookup_nil] at hi
          split at hi
          · exact Nat.le_of_eq (Option.some.inj hi).symm
          · cases hi

theorem labels_le {lines : List Line} {known : Labels} (h : labels lines = .ok known)
    {label : String} {index : Nat} (hl : known.lookup label = some index) :
    index ≤ (statements lines).length := by
  have hle := collectLabels_le (by simp) h hl
  omega

/-! ### Operands -/

section Operands

variable {known : Labels} {op : Opcode} {position : Nat} {kind : OperandKind}
  {operand : OperandText} {token : String} {offset : Option Int64}

theorem resolveRegister_eq_ok {text : String} (h : resolveRegister text = .ok token) :
    ∃ r : Register, token = r.name := by
  unfold resolveRegister at h
  split at h
  · next r _ => exact ⟨r, (Except.ok.inj h).symm⟩
  · cases h

theorem resolveNumber_eq_ok {text : String} {n : Int64} :
    resolveNumber text = .ok n ↔ Decimal.readInt32? text = some n := by
  unfold resolveNumber
  split <;> simp_all

/-- A resolved operand fits its slot, and only an address comes with an offset. -/
theorem resolveOperand_fits
    (hknown : ∀ label index, known.lookup label = some index → index < 2 ^ 31)
    (h : resolveOperand known op position kind operand = .ok (token, offset)) :
    SlotFits (some kind) token ∧
      (kind = .address → ∃ n, offset = some n ∧ FitsInt32 n.toInt) ∧
      (kind ≠ .address → offset = none) := by
  unfold resolveOperand at h
  split at h
  · simp only [bind_eq_ok, pure_eq, Except.ok.injEq, Prod.mk.injEq] at h
    obtain ⟨name, hname, rfl, rfl⟩ := h
    exact ⟨resolveRegister_eq_ok hname, by simp, by simp⟩
  · simp only [bind_eq_ok] at h
    obtain ⟨name, hname, h⟩ := h
    refine ⟨?_, fun _ => ?_, by simp⟩
    · split at h <;> simp only [bind_eq_ok, pure_eq, Except.ok.injEq, Prod.mk.injEq] at h
      · exact h.1 ▸ resolveRegister_eq_ok hname
      · obtain ⟨n, -, rfl, -⟩ := h
        exact resolveRegister_eq_ok hname
    · split at h <;> simp only [bind_eq_ok, pure_eq, Except.ok.injEq, Prod.mk.injEq] at h
      · exact ⟨0, h.2.symm, by decide⟩
      · obtain ⟨n, hn, -, rfl⟩ := h
        exact ⟨n, rfl, Decimal.fitsInt32_of_readInt32? (resolveNumber_eq_ok.mp hn)⟩
  · simp only [bind_eq_ok, pure_eq, Except.ok.injEq, Prod.mk.injEq] at h
    obtain ⟨n, hn, rfl, rfl⟩ := h
    refine ⟨⟨n.toInt, ?_, rfl⟩, by simp, by simp⟩
    exact Decimal.fitsInt32_of_readInt32? (resolveNumber_eq_ok.mp hn)
  · simp only [bind_eq_ok, pure_eq, Except.ok.injEq, Prod.mk.injEq] at h
    obtain ⟨n, hn, rfl, rfl⟩ := h
    refine ⟨⟨n.toInt, ?_, rfl⟩, by simp, by simp⟩
    exact Decimal.fitsInt32_of_readInt32? (resolveNumber_eq_ok.mp hn)
  · split at h
    · next index hi =>
      simp only [Except.ok.injEq, Prod.mk.injEq] at h
      obtain ⟨rfl, rfl⟩ := h
      have hlt := hknown _ _ hi
      refine ⟨⟨index, ⟨by omega, by omega⟩, rfl⟩, by simp, by simp⟩
    · cases h
  · cases h

/-- Resolved operands fill the slots of the shape, and an address gives the offset. -/
theorem resolveOperands_fits
    (hknown : ∀ label index, known.lookup label = some index → index < 2 ^ 31)
    {kinds : List OperandKind} {operands : List Operand} {resolved : List (String × Option Int64)}
    (hlen : operands.length = kinds.length)
    (h : resolveOperands known op position (kinds.zip operands) = .ok resolved) :
    (∀ slot : Nat, SlotFits kinds[slot]? ((resolved.map (·.1)).getD slot "")) ∧
      (.address ∈ kinds → ∃ n, resolved.findSome? (·.2) = some n ∧ FitsInt32 n.toInt) ∧
      (.address ∉ kinds → resolved.findSome? (·.2) = none) := by
  induction kinds generalizing operands resolved position with
  | nil =>
    obtain rfl := Except.ok.inj h
    simp [SlotFits]
  | cons kind kinds ih =>
    cases operands with
    | nil => cases hlen
    | cons operand operands =>
      rw [List.zip_cons_cons, resolveOperands] at h
      simp only [bind_eq_ok, pure_eq, Except.ok.injEq] at h
      obtain ⟨⟨token, offset⟩, hfirst, tail, htail, rfl⟩ := h
      obtain ⟨hfits, haddress, hother⟩ := resolveOperand_fits hknown hfirst
      obtain ⟨hslots, hsome, hnone⟩ := ih (Nat.succ.inj hlen) htail
      refine ⟨fun slot => ?_, fun hmem => ?_, fun hmem => ?_⟩
      · cases slot with
        | zero => exact hfits
        | succ slot => exact hslots slot
      · by_cases hk : kind = .address
        · obtain ⟨n, rfl, hn⟩ := haddress hk
          exact ⟨n, rfl, hn⟩
        · rw [hother hk]
          exact hsome ((List.mem_cons.mp hmem).resolve_left (Ne.symm hk))
      · rw [List.mem_cons, not_or] at hmem
        rw [hother (Ne.symm hmem.1)]
        exact hnone hmem.2

end Operands

/-! ### Programs -/

theorem resolveStatement_eq_ok {known : Labels} {s : Statement} {i : Instruction} :
    resolveStatement known s = .ok i ↔
      (opcodeOf s.mnemonic).isValid = true ∧
        s.operands.length = (shape (opcodeOf s.mnemonic)).length ∧
        ∃ resolved, resolveOperands known (opcodeOf s.mnemonic) 1
            ((shape (opcodeOf s.mnemonic)).zip s.operands) = .ok resolved ∧
          Instruction.ofArgs (opcodeOf s.mnemonic) (resolved.map (·.1))
            ((resolved.findSome? (·.2)).getD 0) = i := by
  unfold resolveStatement
  dsimp only
  split
  · simp_all [throw_eq, error_bind]
  · split
    · simp_all [throw_eq, error_bind]
    · simp_all [bind_eq_ok, pure_eq]

/-- **A statement resolves to a canonical instruction.** -/
theorem resolveStatement_canonical {known : Labels} {s : Statement} {i : Instruction}
    (hknown : ∀ label index, known.lookup label = some index → index < 2 ^ 31)
    (h : resolveStatement known s = .ok i) : Canonical i := by
  obtain ⟨hvalid, hlen, resolved, hresolved, rfl⟩ := resolveStatement_eq_ok.mp h
  generalize opcodeOf s.mnemonic = op at hvalid hlen hresolved ⊢
  obtain ⟨hslots, hsome, hnone⟩ := resolveOperands_fits hknown hlen hresolved
  refine ⟨hvalid, fun slot => ?_, ?_⟩
  · match slot with
    | 0 => exact hslots 0
    | 1 => exact hslots 1
    | 2 => exact hslots 2
  · split
    · next ha =>
      obtain ⟨n, hn, fits⟩ := hsome ((address_mem_shape _).mpr ha)
      simpa [Instruction.ofArgs, hn] using fits
    · next ha =>
      have hn := hnone fun hmem => ha ((address_mem_shape _).mp hmem)
      simp [Instruction.ofArgs, hn]

theorem resolveLines_canonical {known : Labels} {lines : List Line} {code : List Instruction}
    (hknown : ∀ label index, known.lookup label = some index → index < 2 ^ 31)
    (h : resolveLines known lines = .ok code) : ∀ i ∈ code, Canonical i := by
  induction lines generalizing code with
  | nil =>
    obtain rfl := Except.ok.inj h
    simp
  | cons line rest ih =>
    cases line with
    | label position name => exact ih h
    | statement s =>
      unfold resolveLines at h
      split at h
      · cases h
      · next i hi =>
        simp only [bind_eq_ok, pure_eq, Except.ok.injEq] at h
        obtain ⟨tail, htail, rfl⟩ := h
        exact List.forall_mem_cons.mpr ⟨resolveStatement_canonical hknown hi, ih htail⟩

theorem resolve_canonical {lines : List Line} {code : List Instruction}
    (hcount : (statements lines).length < 2 ^ 31) (h : resolve lines = .ok code) :
    ∀ i ∈ code, Canonical i := by
  simp only [resolve, bind_eq_ok] at h
  obtain ⟨known, hlabels, h⟩ := h
  refine resolveLines_canonical (fun label index hl => ?_) h
  exact Nat.lt_of_le_of_lt (labels_le hlabels hl) hcount

/-- The number of statements of a text. A text that is no listing has none. -/
def statementCount (source : String) : Nat :=
  match readListing source with
  | .ok lines => (statements lines).length
  | .error _ => 0

theorem assemble_eq_ok {source : String} {code : List Instruction} :
    assemble source = .ok code ↔
      ∃ lines, parse source = .ok lines ∧ resolve lines = .ok code := by
  unfold assemble
  split
  · simp_all
  · split <;> simp_all

/-- Every statement becomes one instruction. -/
theorem length_resolveLines {known : Labels} {lines : List Line} {code : List Instruction}
    (h : resolveLines known lines = .ok code) : code.length = (statements lines).length := by
  induction lines generalizing code with
  | nil =>
    obtain rfl := Except.ok.inj h
    rfl
  | cons line rest ih =>
    cases line with
    | label position name => exact ih h
    | statement s =>
      unfold resolveLines at h
      split at h
      · cases h
      · simp only [bind_eq_ok, pure_eq, Except.ok.injEq] at h
        obtain ⟨tail, htail, rfl⟩ := h
        exact congrArg Nat.succ (ih htail)

theorem statementCount_eq_length {source : String} {code : List Instruction}
    (h : assemble source = .ok code) : statementCount source = code.length := by
  obtain ⟨lines, hread, hresolve⟩ := assemble_eq_ok.mp h
  simp only [resolve, bind_eq_ok] at hresolve
  obtain ⟨known, -, hlines⟩ := hresolve
  rw [statementCount, readListing_of_parse hread, length_resolveLines hlines]

/-- **Assembled code is canonical.** -/
theorem assemble_canonical {source : String} {code : List Instruction}
    (hcount : statementCount source < 2 ^ 31) (h : assemble source = .ok code) :
    ∀ i ∈ code, Canonical i := by
  obtain ⟨lines, hread, hresolve⟩ := assemble_eq_ok.mp h
  rw [statementCount, readListing_of_parse hread] at hcount
  exact resolve_canonical hcount hresolve

end RegisterMachine.Assembly
