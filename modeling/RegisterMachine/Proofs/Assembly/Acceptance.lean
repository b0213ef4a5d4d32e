import RegisterMachine.Proofs.Assembly.Naming

/-!
# Which listings are programs

A listing is a program if no label is defined twice and every statement fits: its mnemonic is known,
it has as many operands as the shape of the operation, and each operand is of its kind and names
only what there is. Of a listing that is no program the earliest problem is reported. Labels come
before statements, and within a statement the mnemonic comes before the number of operands and that
before the operands from left to right.
-/

set_option autoImplicit false

namespace RegisterMachine.Assembly

open Checks

/-! ### Operands -/

/-- The operand is written in the form that this kind demands. -/
def OperandKind.Admits : OperandKind → OperandText → Prop
  | .register, .register _ => True
  | .address, .address _ _ => True
  | .immediate, .number _ => True
  | .target, .number _ => True
  | .target, .name _ => True
  | _, _ => False

/-- The operand is of this kind, its registers are known, its number is one of 32 bits and its label
is defined. -/
def OperandFits (lines : List Line) : OperandKind → OperandText → Prop
  | .register, .register token => ∃ r : Register, r.NamedBy token
  | .address, .address none base => ∃ r : Register, r.NamedBy base
  | .address, .address (some offset) base =>
    (∃ r : Register, r.NamedBy base) ∧ ∃ n, Decimal.Numeral offset n
  | .immediate, .number token => ∃ n, Decimal.Numeral token n
  | .target, .number token => ∃ n, Decimal.Numeral token n
  | .target, .name label => label ∈ labelNames lines
  | _, _ => False

/-- What is wrong with an operand of `op`. The base of an address comes before its offset. -/
inductive OperandProblem (lines : List Line) (op : Opcode) (position : Nat) :
    OperandKind → OperandText → ResolveProblem → Prop
  | kind {kind : OperandKind} {text : OperandText} (other : ¬ kind.Admits text) :
      OperandProblem lines op position kind text (.wrongKind op position kind)
  | register {token : String} (unknown : ¬ ∃ r : Register, r.NamedBy token) :
      OperandProblem lines op position .register (.register token) (.unknownRegister token)
  | base {offset : Option String} {base : String} (unknown : ¬ ∃ r : Register, r.NamedBy base) :
      OperandProblem lines op position .address (.address offset base) (.unknownRegister base)
  | offset {offset base : String} (known : ∃ r : Register, r.NamedBy base)
      (unread : ¬ ∃ n, Decimal.Numeral offset n) :
      OperandProblem lines op position .address (.address (some offset) base)
        (.invalidNumber offset)
  | immediate {token : String} (unread : ¬ ∃ n, Decimal.Numeral token n) :
      OperandProblem lines op position .immediate (.number token) (.invalidNumber token)
  | index {token : String} (unread : ¬ ∃ n, Decimal.Numeral token n) :
      OperandProblem lines op position .target (.number token) (.invalidNumber token)
  | label {label : String} (undefined : label ∉ labelNames lines) :
      OperandProblem lines op position .target (.name label) (.undefinedLabel label)

section Operands

variable {lines : List Line} {known : Labels} {op : Opcode} {position : Nat}

/-- An operand in a form that its kind does not allow. -/
theorem verdict_otherKind {kind : OperandKind} {text : OperandText} (other : ¬ kind.Admits text) :
    Verdict (resolveOperand known op position kind text) (OperandFits lines kind text)
      (OperandProblem lines op position kind text) := by
  have hrefused : resolveOperand known op position kind text =
      .error (.wrongKind op position kind) := by
    cases kind <;> cases text <;> first | rfl | exact absurd trivial other
  have hunfit : ¬ OperandFits lines kind text := by
    cases kind <;> cases text <;> first | exact id | exact absurd trivial other
  rw [hrefused]
  refine (Verdict.refused _).congr (iff_of_false id hunfit) fun p => ?_
  constructor
  · rintro rfl
    exact .kind other
  · intro h
    cases h with
    | kind => rfl
    | _ => exact absurd trivial other

/-- A number that stands alone, as an immediate or as an index. -/
theorem verdict_number {kind : OperandKind} (hkind : kind = .immediate ∨ kind = .target)
    (token : String) :
    Verdict (resolveOperand known op position kind (.number token))
      (OperandFits lines kind (.number token))
      (OperandProblem lines op position kind (.number token)) := by
  have hread : resolveOperand known op position kind (.number token) =
      resolveNumber token >>= fun n => pure (Decimal.ofInt64 n, none) := by
    rcases hkind with rfl | rfl <;> rfl
  rw [hread]
  refine ((verdict_resolveNumber token).bind fun _ _ => .accepted _).congr ?_ fun p => ?_
  · rw [and_true]
    rcases hkind with rfl | rfl <;> exact Iff.rfl
  · constructor
    · rintro (⟨unread, rfl⟩ | ⟨-, ⟨⟩⟩)
      rcases hkind with rfl | rfl
      · exact .immediate unread
      · exact .index unread
    · intro h
      cases h with
      | kind other => rcases hkind with rfl | rfl <;> exact absurd trivial other
      | immediate unread => exact .inl ⟨unread, rfl⟩
      | index unread => exact .inl ⟨unread, rfl⟩

theorem verdict_address (offset : Option String) (base : String) :
    Verdict (resolveOperand known op position .address (.address offset base))
      (OperandFits lines .address (.address offset base))
      (OperandProblem lines op position .address (.address offset base)) := by
  have hbase := verdict_resolveRegister base
  cases offset with
  | none =>
    refine (hbase.bind fun _ _ => .accepted _).congr (and_iff_left trivial) fun p => ?_
    constructor
    · rintro (⟨unknown, rfl⟩ | ⟨-, ⟨⟩⟩)
      exact .base unknown
    · intro h
      cases h with
      | kind other => exact absurd trivial other
      | base unknown => exact .inl ⟨unknown, rfl⟩
  | some offset =>
    refine (hbase.bind fun _ _ => (verdict_resolveNumber offset).bind fun _ _ =>
      .accepted _).congr (and_congr_right fun _ => and_iff_left trivial) fun p => ?_
    constructor
    · rintro (⟨unknown, rfl⟩ | ⟨known, ⟨unread, rfl⟩ | ⟨-, ⟨⟩⟩⟩)
      · exact .base unknown
      · exact .offset known unread
    · intro h
      cases h with
      | kind other => exact absurd trivial other
      | base unknown => exact .inl ⟨unknown, rfl⟩
      | offset known unread => exact .inr ⟨known, .inl ⟨unread, rfl⟩⟩

theorem verdict_label (hknown : known.map (·.1) = labelNames lines) (label : String) :
    Verdict (resolveOperand known op position .target (.name label))
      (OperandFits lines .target (.name label))
      (OperandProblem lines op position .target (.name label)) := by
  cases hlabel : known.lookup label with
  | some index =>
    have defined : label ∈ labelNames lines := hknown ▸ mem_of_lookup hlabel
    have hresolved : resolveOperand known op position .target (.name label) =
        .ok (Decimal.ofNat index, none) := by simp only [resolveOperand, hlabel]
    rw [hresolved]
    refine (Verdict.accepted _).congr (iff_of_true trivial defined) fun p => ?_
    refine iff_of_false id fun h => ?_
    cases h with
    | kind other => exact other trivial
    | label undefined => exact undefined defined
  | none =>
    have undefined : label ∉ labelNames lines := hknown ▸ lookup_eq_none.mp hlabel
    have hrefused : resolveOperand known op position .target (.name label) =
        .error (.undefinedLabel label) := by simp only [resolveOperand, hlabel]
    rw [hrefused]
    refine (Verdict.refused _).congr (iff_of_false id undefined) fun p => ?_
    constructor
    · rintro rfl
      exact .label undefined
    · intro h
      cases h with
      | kind other => exact absurd trivial other
      | label => rfl

/-- **An operand is refused for what is wrong with it.** -/
theorem verdict_resolveOperand (hknown : known.map (·.1) = labelNames lines) (kind : OperandKind)
    (text : OperandText) :
    Verdict (resolveOperand known op position kind text) (OperandFits lines kind text)
      (OperandProblem lines op position kind text) := by
  match kind, text with
  | .register, .register token =>
    refine ((verdict_resolveRegister token).bind fun _ _ => .accepted _).congr
      (and_iff_left trivial) fun p => ?_
    constructor
    · rintro (⟨unknown, rfl⟩ | ⟨-, ⟨⟩⟩)
      exact .register unknown
    · intro h
      cases h with
      | kind other => exact absurd trivial other
      | register unknown => exact .inl ⟨unknown, rfl⟩
  | .address, .address offset base => exact verdict_address offset base
  | .immediate, .number token => exact verdict_number (.inl rfl) token
  | .target, .number token => exact verdict_number (.inr rfl) token
  | .target, .name label => exact verdict_label hknown label
  | .register, .address .. | .register, .number _ | .register, .name _ | .address, .register _
  | .address, .number _ | .address, .name _ | .immediate, .register _ | .immediate, .address ..
  | .immediate, .name _ | .target, .register _ | .target, .address .. =>
    exact verdict_otherKind id

/-- **Operands are refused for the first that does not fit.** -/
theorem verdict_resolveOperands (hknown : known.map (·.1) = labelNames lines)
    (entries : List (OperandKind × Operand)) :
    Verdict (resolveOperands known op position entries)
      (∀ x ∈ entries, OperandFits lines x.1 x.2.text) fun p =>
        First (fun x => OperandFits lines x.1 x.2.text)
          (fun k x => OperandProblem lines op (position + k) x.1 x.2.text p) entries := by
  induction entries generalizing position with
  | nil => exact (Verdict.accepted _).congr (by simp) fun p => iff_of_false id not_first_nil
  | cons x rest ih =>
    have hplace : ∀ k, position + 1 + k = position + (k + 1) := by omega
    refine ((verdict_resolveOperand hknown x.1 x.2.text).bind fun _ _ =>
      ih.bind fun _ _ => .accepted _).congr ?_ fun p => ?_
    · rw [List.forall_mem_cons, and_true]
    · simp only [first_cons, and_false, or_false, hplace, Nat.add_zero]

end Operands

/-! ### Statements -/

/-- The mnemonic names an operation, and the operands fit its shape. -/
def StatementFits (lines : List Line) (s : Statement) : Prop :=
  ∃ op : Opcode, op.NamedBy s.mnemonic ∧ s.operands.length = (shape op).length ∧
    ∀ x ∈ (shape op).zip s.operands, OperandFits lines x.1 x.2.text

/-- What is wrong with a statement. Operands are looked at from left to right, and only if their
number is right. -/
inductive StatementProblem (lines : List Line) (s : Statement) : ResolveProblem → Prop
  | mnemonic (unknown : ¬ ∃ op : Opcode, op.NamedBy s.mnemonic) :
      StatementProblem lines s (.unknownMnemonic s.mnemonic)
  | count {op : Opcode} (names : op.NamedBy s.mnemonic)
      (other : s.operands.length ≠ (shape op).length) :
      StatementProblem lines s (.operandCount op (shape op).length s.operands.length)
  | operand {op : Opcode} {problem : ResolveProblem} (names : op.NamedBy s.mnemonic)
      (count : s.operands.length = (shape op).length)
      (first : First (fun x => OperandFits lines x.1 x.2.text)
        (fun k x => OperandProblem lines op (k + 1) x.1 x.2.text problem)
        ((shape op).zip s.operands)) :
      StatementProblem lines s problem

section Statements

variable {lines : List Line} {known : Labels}

theorem resolveStatement_unnamed {s : Statement} (unknown : ¬ ∃ op : Opcode, op.NamedBy s.mnemonic) :
    resolveStatement known s = .error (.unknownMnemonic s.mnemonic) := by
  have hinvalid : (opcodeOf s.mnemonic).isValid = false :=
    Bool.eq_false_iff.mpr fun valid => unknown ⟨_, Opcode.namedBy_iff.mpr ⟨valid, rfl⟩⟩
  unfold resolveStatement
  dsimp only
  rw [hinvalid]
  rfl

theorem resolveStatement_named {s : Statement} {op : Opcode} (names : op.NamedBy s.mnemonic) :
    resolveStatement known s =
      if s.operands.length = (shape op).length then
        resolveOperands known op 1 ((shape op).zip s.operands) >>= fun resolved =>
          pure (.ofArgs op (resolved.map (·.1)) ((resolved.findSome? (·.2)).getD 0))
      else .error (.operandCount op (shape op).length s.operands.length) := by
  obtain ⟨valid, rfl⟩ := Opcode.namedBy_iff.mp names
  unfold resolveStatement
  dsimp only
  rw [valid, if_neg (by decide), ite_not]
  rfl

/-- **A statement is refused for its mnemonic, else for the number of its operands, else for the
first operand that does not fit.** -/
theorem verdict_resolveStatement (hknown : known.map (·.1) = labelNames lines) (s : Statement) :
    Verdict (resolveStatement known s) (StatementFits lines s) (StatementProblem lines s) := by
  by_cases named : ∃ op : Opcode, op.NamedBy s.mnemonic
  · obtain ⟨op, names⟩ := named
    rw [resolveStatement_named names]
    by_cases count : s.operands.length = (shape op).length
    · rw [if_pos count]
      refine ((verdict_resolveOperands hknown _).bind fun _ _ => .accepted _).congr ?_ fun p => ?_
      · constructor
        · rintro ⟨fits, -⟩
          exact ⟨op, names, count, fits⟩
        · rintro ⟨op', names', -, fits⟩
          obtain rfl := names.unique names'
          exact ⟨fits, trivial⟩
      · simp only [and_false, or_false, Nat.add_comm 1]
        constructor
        · exact .operand names count
        · intro h
          cases h with
          | mnemonic unknown => exact absurd ⟨op, names⟩ unknown
          | count names' other => exact absurd (names.unique names' ▸ count) other
          | operand names' _ first => exact names.unique names' ▸ first
    · rw [if_neg count]
      refine (Verdict.refused _).congr (iff_of_false id ?_) fun p => ?_
      · rintro ⟨op', names', count', -⟩
        obtain rfl := names.unique names'
        exact count count'
      · constructor
        · rintro rfl
          exact .count names count
        · intro h
          cases h with
          | mnemonic unknown => exact absurd ⟨op, names⟩ unknown
          | count names' =>
            obtain rfl := names.unique names'
            rfl
          | operand names' count' => exact absurd (names.unique names' ▸ count') count
  · rw [resolveStatement_unnamed named]
    refine (Verdict.refused _).congr (iff_of_false id ?_) fun p => ?_
    · rintro ⟨op, names, -⟩
      exact named ⟨op, names⟩
    · constructor
      · rintro rfl
        exact .mnemonic named
      · intro h
        cases h with
        | mnemonic => rfl
        | count names => exact absurd ⟨_, names⟩ named
        | operand names => exact absurd ⟨_, names⟩ named

/-- **Statements are refused for the first that does not fit.** -/
theorem verdict_resolveLines (hknown : known.map (·.1) = labelNames lines) (rest : List Line) :
    Verdict (resolveLines known rest) (∀ s ∈ statements rest, StatementFits lines s) fun e =>
      First (StatementFits lines)
        (fun _ s => ∃ problem, StatementProblem lines s problem ∧ ⟨s.position.line, problem⟩ = e)
        (statements rest) := by
  induction rest with
  | nil => exact (Verdict.accepted _).congr (by simp) fun e => iff_of_false id not_first_nil
  | cons line rest ih =>
    cases line with
    | label position name => exact ih
    | statement s =>
      have hbind : resolveLines known (.statement s :: rest) =
          (resolveStatement known s).mapError (⟨s.position.line, ·⟩) >>= fun i =>
            resolveLines known rest >>= fun code => pure (i :: code) := by
        rw [resolveLines]
        cases resolveStatement known s <;> rfl
      rw [hbind]
      refine (((verdict_resolveStatement hknown s).mapError _).bind fun _ _ =>
        ih.bind fun _ _ => .accepted _).congr ?_ fun e => ?_
      · rw [statements_statement, List.forall_mem_cons, and_true]
      · simp only [statements_statement, first_cons, and_false, or_false]

end Statements

/-! ### Listings -/

/-- The error of a listing: of the first definition that repeats a label, or else of the first
statement that does not fit. -/
inductive Reports (lines : List Line) : ResolveError → Prop
  | label {before after : List Line} {position : Position} {name : String}
      (split : lines = before ++ .label position name :: after)
      (distinct : (labelNames before).Nodup) (repeated : name ∈ labelNames before) :
      Reports lines ⟨position.line, .duplicateLabel name⟩
  | statement {earlier later : List Statement} {s : Statement} {problem : ResolveProblem}
      (distinct : (labelNames lines).Nodup) (split : statements lines = earlier ++ s :: later)
      (fits : ∀ t ∈ earlier, StatementFits lines t) (unfit : StatementProblem lines s problem) :
      Reports lines ⟨s.position.line, problem⟩

theorem verdict_labels (lines : List Line) :
    Verdict (labels lines) (labelNames lines).Nodup fun e =>
      ∃ before position name after, lines = before ++ .label position name :: after ∧
        (labelNames before).Nodup ∧ name ∈ labelNames before ∧
        ⟨position.line, .duplicateLabel name⟩ = e := by
  constructor
  · simp only [labels_eq_ok]
    exact ⟨fun ⟨_, distinct, _⟩ => distinct, fun distinct => ⟨_, distinct, rfl⟩⟩
  · exact fun e => collectLabels_eq_error List.nodup_nil

/-- **A listing is a program exactly if its labels are distinct and its statements fit**, and the
error of any other is that of its earliest problem. -/
theorem resolve_verdict (lines : List Line) :
    Verdict (resolve lines)
      ((labelNames lines).Nodup ∧ ∀ s ∈ statements lines, StatementFits lines s)
      (Reports lines) := by
  have hknown : ∀ known, labels lines = .ok known → known.map (·.1) = labelNames lines := by
    intro known h
    obtain ⟨-, rfl⟩ := labels_eq_ok.mp h
    exact map_fst_labelPlaces 0 lines
  refine ((verdict_labels lines).bind fun known h =>
    verdict_resolveLines (hknown known h) lines).congr Iff.rfl fun e => ?_
  constructor
  · rintro (⟨before, position, name, after, split, distinct, repeated, rfl⟩ |
      ⟨distinct, earlier, s, later, split, fits, problem, unfit, rfl⟩)
    · exact .label split distinct repeated
    · exact .statement distinct split fits unfit
  · intro h
    cases h with
    | label split distinct repeated => exact .inl ⟨_, _, _, _, split, distinct, repeated, rfl⟩
    | statement distinct split fits unfit =>
      exact .inr ⟨distinct, _, _, _, split, fits, _, unfit, rfl⟩

/-- A label that is repeated behind a mnemonic that there is not. -/
example : (match assemble "nop\na: halt\na: b a" with
    | .error (.unresolved e) => some e
    | _ => none) = some ⟨3, .duplicateLabel "a"⟩ := by decide +kernel

/-- A wrong number of operands, with an unknown register among them. -/
example : (match assemble "b end\nend:\nMV $t9\nnop" with
    | .error (.unresolved e) => some e
    | _ => none) = some ⟨3, .operandCount .mv 2 1⟩ := by decide +kernel

end RegisterMachine.Assembly
