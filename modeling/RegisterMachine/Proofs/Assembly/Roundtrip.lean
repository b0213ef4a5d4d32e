import Mathlib.Data.List.Basic
import Mathlib.Data.List.TakeWhile
import RegisterMachine.Proofs.Assembly.Limits
import RegisterMachine.Proofs.Assembly.Reading

/-!
# Programs read back

A canonical instruction has one line of text, and assembling that line gives the instruction
again. Together with the fact that assembled code is canonical this says that a program survives
being printed: the texts that come out of the printer are normal forms.
-/

set_option autoImplicit false

namespace RegisterMachine.Assembly

open Checks
open Decimal (FitsInt32)

/-! ### Tokens of canonical instructions -/

theorem isToken_register (r : Register) : IsToken .register r.name := by
  cases r <;> decide

theorem isToken_mnemonic {op : Opcode} (h : op.isValid = true) : IsToken .name op.name := by
  cases op <;> first | decide | cases h

theorem isToken_number (n : Int) : IsToken .number (Decimal.ofInt n) := by
  have htake : ∀ {cs : List Char}, (∀ c ∈ cs, c.isDigit = true) → cs.takeWhile Char.isDigit = cs :=
    fun h => List.takeWhile_eq_self_iff.mpr h
  have hdigits : ∀ n, ∀ c ∈ Nat.toDigits 10 n, c.isDigit = true := fun n c hc =>
    Nat.isDigit_of_mem_toDigits (by decide) (by decide) hc
  unfold IsToken
  cases n with
  | ofNat n =>
    rw [Decimal.ofInt, Decimal.toList_ofNat]
    cases hn : Nat.toDigits 10 n with
    | nil => exact absurd hn Nat.toDigits_ne_nil
    | cons c tail =>
      obtain ⟨hc, htail⟩ := List.forall_mem_cons.mp (hn ▸ hdigits n)
      have hlexes : Lexes (c :: tail) .number _ := .digits hc
      rw [htake htail] at hlexes
      exact lexeme?_of_lexes hlexes
  | negSucc n =>
    have htext : (Decimal.ofInt (.negSucc n)).toList = '-' :: Nat.toDigits 10 (n + 1) := by
      rw [Decimal.ofInt, String.toList_append, Decimal.toList_ofNat]
      rfl
    have hall := htake (hdigits (n + 1))
    have hlexes : Lexes ('-' :: Nat.toDigits 10 (n + 1)) .number _ :=
      .signed (.inl rfl) (by rw [hall]; exact Nat.toDigits_ne_nil)
    rw [hall] at hlexes
    rw [htext]
    exact lexeme?_of_lexes hlexes

/-! ### The line of an instruction -/

/-- The slots of the shape with their tokens. -/
def filledSlots (i : Instruction) : List (OperandKind × String) :=
  (shape i.op).zip i.args

/-- The operand that is written for a slot. -/
def slotText (offset : Int64) : OperandKind × String → OperandText
  | (.register, token) => .register token
  | (.address, token) => .address (some (Decimal.ofInt64 offset)) token
  | (.immediate, token) => .number token
  | (.target, token) => .number token

def statementText (i : Instruction) : StatementText :=
  { mnemonic := i.op.name, operands := (filledSlots i).map (slotText i.offset) }

theorem SlotFits.ne_empty {kind : OperandKind} {token : String} (h : SlotFits (some kind) token) :
    token ≠ "" := by
  cases kind with
  | register | address =>
    obtain ⟨r, rfl⟩ := h
    cases r <;> decide
  | immediate | target =>
    obtain ⟨n, -, rfl⟩ := h
    exact Decimal.ofInt_ne_empty n

theorem toList_foldl_blank (tokens : List String) (start : String) :
    (tokens.foldl (fun line token => line ++ " " ++ token) start).toList =
      start.toList ++ tokens.flatMap (fun token => ' ' :: token.toList) :=
  toList_foldl (by simp) tokens start

namespace Canonical

variable {i : Instruction} (h : Canonical i)
include h

theorem slot_fits : ∀ x ∈ filledSlots i, SlotFits (some x.1) x.2 := by
  rintro ⟨kind, token⟩ hx
  obtain ⟨n, hn⟩ := List.mem_iff_getElem?.mp hx
  obtain ⟨hkind, htoken⟩ := List.getElem?_zip_eq_some.mp hn
  match n with
  | 0 => exact Option.some.inj htoken ▸ hkind ▸ h.slots 0
  | 1 => exact Option.some.inj htoken ▸ hkind ▸ h.slots 1
  | 2 => exact Option.some.inj htoken ▸ hkind ▸ h.slots 2

theorem statementText_wellFormed : (statementText i).WellFormed := by
  have hslot : ∀ x ∈ filledSlots i, (slotText i.offset x).WellFormed ∧
      ∀ base, slotText i.offset x ≠ .address none base := by
    rintro ⟨kind, token⟩ hx
    have hfits := h.slot_fits _ hx
    cases kind with
    | register =>
      obtain ⟨r, rfl⟩ := hfits
      exact ⟨isToken_register r, by simp [slotText]⟩
    | address =>
      obtain ⟨r, rfl⟩ := hfits
      exact ⟨⟨isToken_number _, isToken_register r⟩, by simp [slotText]⟩
    | immediate | target =>
      obtain ⟨n, -, rfl⟩ := hfits
      exact ⟨isToken_number n, by simp [slotText]⟩
  refine ⟨isToken_mnemonic h.valid, ?_, ?_⟩
  · exact List.forall_mem_map.mpr fun x hx => (hslot x hx).1
  · exact List.forall_mem_map.mpr fun x hx => (hslot x hx).2

theorem arg_eq_empty_iff (slot : Fin 3) : i.arg slot = "" ↔ (shape i.op).length ≤ slot.val := by
  have hfits := h.slots slot
  rw [← List.getElem?_eq_none_iff]
  cases hk : (shape i.op)[slot.val]? with
  | none =>
    rw [hk] at hfits
    exact iff_of_true hfits rfl
  | some kind =>
    rw [hk] at hfits
    exact iff_of_false hfits.ne_empty (by simp)

/-- The slots of the shape come first. -/
theorem args_eq : i.args =
    (filledSlots i).map (·.2) ++ List.replicate (3 - (shape i.op).length) "" := by
  have h0 : i.arg1 = "" ↔ (shape i.op).length ≤ 0 := h.arg_eq_empty_iff 0
  have h1 : i.arg2 = "" ↔ (shape i.op).length ≤ 1 := h.arg_eq_empty_iff 1
  have h2 : i.arg3 = "" ↔ (shape i.op).length ≤ 2 := h.arg_eq_empty_iff 2
  have hle := shape_length_le i.op
  unfold filledSlots Instruction.args
  match hs : shape i.op with
  | [] | [_] | [_, _] | [_, _, _] => simp_all
  | _ :: _ :: _ :: _ :: _ =>
    simp only [hs, List.length_cons] at hle
    omega

theorem takeWhile_args : i.args.takeWhile (· ≠ "") = (filledSlots i).map (·.2) := by
  have htokens : ∀ token ∈ (filledSlots i).map (·.2), token ≠ "" :=
    List.forall_mem_map.mpr fun x hx => (h.slot_fits x hx).ne_empty
  rw [h.args_eq, List.takeWhile_append_of_pos (by simpa using htokens)]
  simp

/-- The tokens of the shape make up the instruction. -/
theorem ofArgs_filledSlots (offset : Int64) :
    Instruction.ofArgs i.op ((filledSlots i).map (·.2)) offset = { i with offset } := by
  rw [← Instruction.ofArgs_append_empty i.op _ (3 - (shape i.op).length), ← h.args_eq]
  rfl

/-- The line of a canonical instruction. -/
theorem toList_text : i.text.toList ++ ['\n'] = (statementText i).source := by
  unfold Instruction.text
  split
  · next ha =>
    have hop : i.op = .lw ∨ i.op = .sw := by simpa [Instruction.hasAddress] using ha
    rcases hop with hop | hop <;>
      simp [statementText, filledSlots, StatementText.source, hop, shape, Instruction.args,
        slotText, toList_source, OperandText.tokenTexts]
  · next ha =>
    -- Without an address every operand is written as its token.
    have hplain : ∀ x ∈ filledSlots i, (slotText i.offset x).source = x.2 := by
      rintro ⟨kind, token⟩ hx
      have hkind : kind ≠ .address := by
        rintro rfl
        exact ha ((address_mem_shape i).mp (List.of_mem_zip hx).1)
      cases kind with
      | address => exact absurd rfl hkind
      | _ => simp [slotText, OperandText.source, OperandText.tokenTexts]
    have hlines : (filledSlots i).flatMap (fun x => ' ' :: (slotText i.offset x).source.toList) =
        (filledSlots i).flatMap (fun x => ' ' :: x.2.toList) :=
      List.flatMap_congr fun x hx => by rw [hplain x hx]
    rw [h.takeWhile_args, toList_foldl_blank, StatementText.source, statementText,
      List.flatMap_map, List.flatMap_map, hlines]

end Canonical

/-! ### Assembling the line -/

theorem opcodeOf_name {op : Opcode} (h : op.isValid = true) : opcodeOf op.name = op := by
  cases op <;> first | decide | cases h

theorem resolveRegister_name (r : Register) : resolveRegister r.name = .ok r.name := by
  cases r <;> rfl

theorem resolveNumber_ofInt {n : Int} (h : FitsInt32 n) :
    resolveNumber (Decimal.ofInt n) = .ok (Int64.ofInt n) :=
  resolveNumber_eq_ok.mpr (Decimal.readInt32?_ofInt h)

theorem resolveNumber_ofInt64 {n : Int64} (h : FitsInt32 n.toInt) :
    resolveNumber (Decimal.ofInt64 n) = .ok n := by
  rw [Decimal.ofInt64, resolveNumber_ofInt h, Int64.ofInt_toInt]

/-- A slot is resolved to its token; only an address brings the offset along. -/
theorem resolveOperand_slotText {known : Labels} {op : Opcode} {position : Nat} {offset : Int64}
    {x : OperandKind × String} (hfits : SlotFits (some x.1) x.2)
    (hoffset : x.1 = .address → FitsInt32 offset.toInt) :
    resolveOperand known op position x.1 (slotText offset x) =
      .ok (x.2, if x.1 = .address then some offset else none) := by
  obtain ⟨kind, token⟩ := x
  cases kind with
  | register =>
    obtain ⟨r, rfl⟩ := hfits
    simp [slotText, resolveOperand, resolveRegister_name, ok_bind, pure_eq]
  | address =>
    obtain ⟨r, rfl⟩ := hfits
    simp [slotText, resolveOperand, resolveRegister_name, resolveNumber_ofInt64 (hoffset rfl),
      ok_bind, pure_eq]
  | immediate | target =>
    obtain ⟨n, hn, rfl⟩ := hfits
    simp [slotText, resolveOperand, resolveNumber_ofInt hn, ok_bind, pure_eq, Decimal.ofInt64,
      Decimal.toInt_ofInt hn]

theorem resolveOperands_slotText {known : Labels} {op : Opcode} {position : Nat} {offset : Int64}
    {xs : List (OperandKind × String)} {operands : List Operand}
    (htexts : operands.map (·.text) = xs.map (slotText offset))
    (hfits : ∀ x ∈ xs, SlotFits (some x.1) x.2)
    (hoffset : .address ∈ xs.map (·.1) → FitsInt32 offset.toInt) :
    resolveOperands known op position ((xs.map (·.1)).zip operands) =
      .ok (xs.map fun x => (x.2, if x.1 = .address then some offset else none)) := by
  induction xs generalizing operands position with
  | nil => rfl
  | cons x xs ih =>
    obtain ⟨operand, tail, rfl, htext, htail⟩ := List.map_eq_cons_iff.mp htexts
    obtain ⟨hx, hxs⟩ := List.forall_mem_cons.mp hfits
    have hfirst : resolveOperand known op position x.1 (slotText offset x) = _ :=
      resolveOperand_slotText hx fun ha => hoffset (by simp [ha])
    rw [List.map_cons, List.zip_cons_cons, resolveOperands, htext, hfirst, ok_bind,
      ih htail hxs fun ha => hoffset (by simp_all)]
    rfl

/-- The offset is the one that an address brings along. -/
theorem findSome?_offset (xs : List (OperandKind × String)) (offset : Int64) :
    (xs.map fun x => (x.2, if x.1 = .address then some offset else none)).findSome? (·.2) =
      if .address ∈ xs.map (·.1) then some offset else none := by
  induction xs with
  | nil => rfl
  | cons x xs ih =>
    obtain ⟨kind, token⟩ := x
    rw [List.map_cons, List.findSome?_cons, ih]
    by_cases hmem : .address ∈ xs.map (·.1)
    · cases kind <;> simp [hmem]
    · cases kind <;> simp [hmem]

/-- **The line of a canonical instruction is assembled to it.** -/
theorem resolveStatement_statementText {known : Labels} {s : Statement} {i : Instruction}
    (h : Canonical i) (hs : s.content = statementText i) : resolveStatement known s = .ok i := by
  have htexts : s.operands.map (·.text) = (filledSlots i).map (slotText i.offset) :=
    congrArg StatementText.operands hs
  have hmnemonic : s.mnemonic = i.op.name := congrArg StatementText.mnemonic hs
  have hop : opcodeOf s.mnemonic = i.op := by rw [hmnemonic, opcodeOf_name h.valid]
  have hkinds : (filledSlots i).map (·.1) = shape i.op :=
    List.map_fst_zip (shape_length_le i.op)
  have hlen : s.operands.length = (shape i.op).length := by
    rw [← hkinds, List.length_map, ← List.length_map (·.text), htexts, List.length_map]
  have hoffset : (if .address ∈ shape i.op then some i.offset else none).getD 0 = i.offset := by
    have hoff := h.offset
    simp only [address_mem_shape]
    by_cases ha : i.hasAddress = true
    · simp [ha]
    · simp_all
  have hfits : .address ∈ (filledSlots i).map (·.1) → FitsInt32 i.offset.toInt := by
    intro ha
    rw [hkinds, address_mem_shape] at ha
    simpa [ha] using h.offset
  have hresolved : resolveOperands known i.op 1 ((shape i.op).zip s.operands) = _ :=
    hkinds ▸ resolveOperands_slotText htexts h.slot_fits hfits
  rw [resolveStatement_eq_ok, hop]
  refine ⟨h.valid, hlen, _, hresolved, ?_⟩
  simp only [findSome?_offset, hkinds, hoffset, List.map_map]
  exact h.ofArgs_filledSlots i.offset

theorem collectLabels_statements (ss : List Statement) (next : Nat) (known : Labels) :
    collectLabels (ss.map .statement) next known = .ok known := by
  induction ss generalizing next with
  | nil => rfl
  | cons s ss ih => exact ih (next + 1)

theorem resolveLines_statementText {known : Labels} {ss : List Statement}
    {code : List Instruction} (h : ∀ i ∈ code, Canonical i)
    (hss : ss.map Statement.content = code.map statementText) :
    resolveLines known (ss.map .statement) = .ok code := by
  induction code generalizing ss with
  | nil =>
    obtain rfl := List.map_eq_nil_iff.mp hss
    rfl
  | cons i code ih =>
    obtain ⟨s, tail, rfl, hs, htail⟩ := List.map_eq_cons_iff.mp hss
    obtain ⟨hi, hcode⟩ := List.forall_mem_cons.mp h
    rw [List.map_cons, resolveLines, resolveStatement_statementText hi hs]
    simp only [ih hcode htail, ok_bind, pure_eq]

/-! ### Programs -/

theorem toList_format (code : List Instruction) :
    (format code).toList = code.flatMap fun i => i.text.toList ++ ['\n'] := by
  show (format code).toList = "".toList ++ code.flatMap fun i => i.text.toList ++ ['\n']
  exact toList_foldl (by simp) code ""

/-- Each line of a text of statements has a mnemonic. -/
theorem not_crowded_statements (texts : List StatementText) :
    ¬ Crowded ((texts.flatMap StatementText.spellings).map Prod.fst) := by
  rw [List.map_flatMap]
  refine not_crowded_flatMap (fun t => ?_) texts
  refine ⟨(t.operands.flatMap OperandText.spellings).map Prod.fst,
    by simp [StatementText.spellings], List.forall_mem_map.mpr fun spelling h => ?_⟩
  obtain ⟨o, -, ho⟩ := List.mem_flatMap.mp h
  exact o.solid_spellings spelling ho

section Printed

variable {code : List Instruction} (h : ∀ i ∈ code, Canonical i)
include h

theorem toList_format_of_canonical :
    (format code).toList = (code.map statementText).flatMap StatementText.source := by
  rw [toList_format, List.flatMap_map]
  exact List.flatMap_congr fun i hi => (h i hi).toList_text

theorem statementTexts_wellFormed : ∀ t ∈ code.map statementText, t.WellFormed :=
  List.forall_mem_map.mpr fun i hi => (h i hi).statementText_wellFormed

theorem format_not_crowded : ¬ Crowded (tokenKinds (format code)) := by
  have hsource := toList_format_of_canonical h
  have hwell := statementTexts_wellFormed h
  cases htexts : code.map statementText with
  | nil =>
    -- The empty text still gets its line end.
    obtain rfl := List.map_eq_nil_iff.mp htexts
    exact not_crowded_lineEnd
  | cons t texts =>
    rw [htexts] at hsource hwell
    rw [tokenKinds_of_spells (terminated_statements hsource ▸ Spells.statements hwell)]
    exact not_crowded_statements (t :: texts)

/-- **A printed canonical program is assembled to itself**, unless it is too long. -/
theorem assemble_format_of_canonical :
    (code.length < repetitionLimit → assemble (format code) = .ok code) ∧
      (repetitionLimit ≤ code.length →
        ∃ p, assemble (format code) = .error (.unread (.excessive .lines p))) := by
  obtain ⟨ss, hread, hcontent⟩ :=
    readListing_statements (statementTexts_wellFormed h) (toList_format_of_canonical h)
  have hlength : (ss.map Line.statement).length = code.length := by
    have := congrArg List.length hcontent
    simpa using this
  have hresolve : resolve (ss.map .statement) = .ok code := by
    rw [resolve, labels, collectLabels_statements, ok_bind]
    exact resolveLines_statementText h hcontent
  rcases assemble_settled hread hresolve with
    ⟨-, hfew, haccepted⟩ | ⟨hcrowded, -⟩ | ⟨hmany, hrefused⟩
  · exact ⟨fun _ => haccepted, fun hmany => absurd hmany (Nat.not_le.mpr (hlength ▸ hfew))⟩
  · exact absurd hcrowded (format_not_crowded h)
  · exact ⟨fun hfew => absurd hfew (Nat.not_lt.mpr (hlength ▸ hmany)), fun _ => hrefused⟩

end Printed

/-- **Canonical programs below the limit are the normal forms of assembly.** Assembled code is
canonical, a printed canonical program is assembled to itself unless it is too long, and so printing
assembled code and assembling it again changes nothing. -/
theorem assemble_normalForm :
    (∀ code, (∃ source, assemble source = .ok code) ↔
      (∀ i ∈ code, Canonical i) ∧ code.length < repetitionLimit) ∧
    (∀ code, (∀ i ∈ code, Canonical i) →
      (code.length < repetitionLimit → assemble (format code) = .ok code) ∧
        (repetitionLimit ≤ code.length →
          ∃ p, assemble (format code) = .error (.unread (.excessive .lines p)))) ∧
    (∀ source code, assemble source = .ok code → assemble (format code) = .ok code) := by
  refine ⟨fun code => ⟨?_, ?_⟩, fun code h => assemble_format_of_canonical h, ?_⟩
  · rintro ⟨source, h⟩
    exact ⟨canonical_of_assemble h, length_lt_of_assemble h⟩
  · rintro ⟨canonical, hlength⟩
    exact ⟨format code, (assemble_format_of_canonical canonical).1 hlength⟩
  · intro source code h
    exact (assemble_format_of_canonical (canonical_of_assemble h)).1 (length_lt_of_assemble h)

/-- A loop with a label, a comment, a mnemonic in capitals and the least number. -/
def loopSource : String :=
  "loop: lw $a0, -8($fp) ; spilled\nADDI $t1 $t1 -2147483648\n\nbeq $a0, $t1 loop\nhalt"

theorem assemble_normalForm_loop :
    ∃ code, assemble loopSource = .ok code ∧ (∀ i ∈ code, Canonical i) ∧
      code.length < repetitionLimit ∧ assemble (format code) = .ok code := by
  have assembled : assemble loopSource = .ok
      [.memory .lw "$a0" (-8) "$fp", .ofArgs .addi ["$t1", "$t1", "-2147483648"] 0,
        .ofArgs .beq ["$a0", "$t1", "0"] 0, .ofArgs .halt [] 0] :=
    toOption_eq_some.mp (by decide +kernel)
  obtain ⟨canonical, hlength⟩ := (assemble_normalForm.1 _).mp ⟨_, assembled⟩
  exact ⟨_, assembled, canonical, hlength, assemble_normalForm.2.2 _ _ assembled⟩

/-- As many instructions as there may not be lines. -/
def longProgram : List Instruction :=
  List.replicate repetitionLimit (.ofArgs .pop [] 0)

/-- A canonical program that cannot be assembled once it is printed. -/
theorem longProgram_refused : (∀ i ∈ longProgram, Canonical i) ∧
    ∃ p, assemble (format longProgram) = .error (.unread (.excessive .lines p)) := by
  have hcanonical : ∀ i ∈ longProgram, Canonical i := by
    intro i hi
    obtain rfl := List.eq_of_mem_replicate hi
    exact .of_slots rfl rfl rfl rfl rfl
  refine ⟨hcanonical, (assemble_format_of_canonical hcanonical).2 ?_⟩
  rw [longProgram, List.length_replicate]

end RegisterMachine.Assembly
