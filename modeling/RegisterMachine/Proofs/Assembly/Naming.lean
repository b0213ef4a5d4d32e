import RegisterMachine.Proofs.Assembly.Roundtrip
import RegisterMachine.Proofs.Assembly.Soundness

/-!
# What names stand for

A mnemonic stands for an operation, a token for a register and a label for a place in the program:
the number of statements in front of its definition. Each is said here without the search that
finds it. Collecting the labels of a listing fails at the first definition that repeats a name, and
finds the place of each label otherwise.
-/

set_option autoImplicit false

namespace RegisterMachine

open Checks

/-! ### Operations and registers -/

/-- The mnemonic is the name of this operation, but for the case of its letters. -/
def Opcode.NamedBy (op : Opcode) (mnemonic : String) : Prop :=
  op.isValid = true ∧ mnemonic.toList.map Char.toLower = op.name.toList.map Char.toLower

/-- The token is the name of this register, with or without the `$` in front. -/
def Register.NamedBy (r : Register) (token : String) : Prop :=
  token.toList = r.name.toList ∨ '$' :: token.toList = r.name.toList

theorem Opcode.namedBy_iff {op : Opcode} {mnemonic : String} :
    op.NamedBy mnemonic ↔ op.isValid = true ∧ Assembly.opcodeOf mnemonic = op := by
  refine and_congr_right fun valid => ?_
  constructor
  · intro h
    rw [Assembly.opcodeOf, h]
    exact Assembly.opcodeOf_name valid
  · intro h
    unfold Assembly.opcodeOf Opcode.ofMnemonic at h
    cases hfind : Opcode.instructionSet.find? fun op =>
        op.name == String.ofList (mnemonic.toList.map Char.toLower) with
    | none =>
      rw [hfind, Option.getD_none] at h
      rw [← h] at valid
      cases valid
    | some found =>
      rw [hfind, Option.getD_some] at h
      subst h
      have hname := List.find?_some hfind
      -- The name of an operation is in lower case.
      have hlower : found.name.toList.map Char.toLower = found.name.toList := by
        cases found <;> first | decide | cases valid
      rw [hlower, beq_iff_eq.mp hname, String.toList_ofList]

theorem Opcode.NamedBy.unique {op op' : Opcode} {mnemonic : String} (h : op.NamedBy mnemonic)
    (h' : op'.NamedBy mnemonic) : op = op' :=
  (Opcode.namedBy_iff.mp h).2.symm.trans (Opcode.namedBy_iff.mp h').2

theorem Register.namedBy_iff {r : Register} {token : String} :
    r.NamedBy token ↔ Register.ofToken? token = some r := by
  have hbare : r.NamedBy token ↔ '$' :: Register.bareToken token = r.name.toList := by
    unfold NamedBy Register.bareToken
    split
    · next rest hrest =>
      -- No name has two dollar signs.
      have hsecond : '$' :: '$' :: rest ≠ r.name.toList := by cases r <;> simp [Register.name]
      rw [hrest]
      exact or_iff_left hsecond
    · next hother =>
      refine or_iff_right fun h => ?_
      have hfirst : ∃ rest, r.name.toList = '$' :: rest := by cases r <;> exact ⟨_, rfl⟩
      obtain ⟨rest, hrest⟩ := hfirst
      exact hother rest (h.trans hrest)
  rw [hbare]
  constructor
  · intro h
    have hname : '$' :: Register.bareToken r.name = r.name.toList := by cases r <;> rfl
    rw [← Register.ofToken?_name r, Register.ofToken?, Register.ofToken?, h, hname]
  · intro h
    have hfound := List.find?_some (Register.ofToken?.eq_1 token ▸ h)
    exact (beq_iff_eq.mp hfound).symm

namespace Assembly

theorem verdict_resolveRegister (token : String) :
    Verdict (resolveRegister token) (∃ r : Register, r.NamedBy token) fun p =>
      (¬ ∃ r : Register, r.NamedBy token) ∧ .unknownRegister token = p := by
  simp only [Register.namedBy_iff]
  unfold resolveRegister
  cases h : Register.ofToken? token with
  | some r => exact (Verdict.accepted _).congr (by simp) (by simp)
  | none => exact (Verdict.refused _).congr (by simp) (by simp)

theorem verdict_resolveNumber (token : String) :
    Verdict (resolveNumber token) (∃ n, Decimal.Numeral token n) fun p =>
      (¬ ∃ n, Decimal.Numeral token n) ∧ .invalidNumber token = p := by
  unfold resolveNumber
  cases h : Decimal.readInt32? token with
  | some n =>
    obtain ⟨v, hv, -⟩ := Decimal.readInt32?_eq_some.mp h
    have known : ∃ n, Decimal.Numeral token n := ⟨v, hv⟩
    exact (Verdict.accepted _).congr (by simp [known]) (by simp [known])
  | none =>
    have unknown : ¬ ∃ n, Decimal.Numeral token n := by
      rintro ⟨v, hv⟩
      rw [Decimal.readInt32?_eq_some.mpr ⟨v, hv, rfl⟩] at h
      cases h
    exact (Verdict.refused _).congr (by simp [unknown]) (by simp [unknown])

/-! ### Labels -/

/-- The names of the labels of a listing, in the order of their definitions. -/
def labelNames (lines : List Line) : List String :=
  lines.filterMap fun
    | .label _ name => some name
    | .statement _ => none

section Lines

variable (lines before after : List Line) (s : Statement) (position : Position) (name : String)

@[simp] theorem statements_nil : statements [] = [] := rfl

@[simp] theorem statements_statement :
    statements (.statement s :: lines) = s :: statements lines := rfl

@[simp] theorem statements_label :
    statements (.label position name :: lines) = statements lines := rfl

@[simp] theorem statements_append :
    statements (before ++ after) = statements before ++ statements after :=
  List.filterMap_append

@[simp] theorem labelNames_nil : labelNames [] = [] := rfl

@[simp] theorem labelNames_statement :
    labelNames (.statement s :: lines) = labelNames lines := rfl

@[simp] theorem labelNames_label :
    labelNames (.label position name :: lines) = name :: labelNames lines := rfl

@[simp] theorem labelNames_append :
    labelNames (before ++ after) = labelNames before ++ labelNames after :=
  List.filterMap_append

end Lines

/-- The listing defines `name` between these lines, and nowhere else. -/
structure Defines (lines : List Line) (name : String) (before after : List Line) : Prop where
  split : ∃ position, lines = before ++ .label position name :: after
  fresh : name ∉ labelNames before
  final : name ∉ labelNames after

/-- The labels of a listing with the numbers of the statements in front of them, the first of which
has the number `next`. -/
def labelPlaces : Nat → List Line → Labels
  | _, [] => []
  | next, .statement _ :: rest => labelPlaces (next + 1) rest
  | next, .label _ name :: rest => (name, next) :: labelPlaces next rest

theorem map_fst_labelPlaces (next : Nat) (lines : List Line) :
    (labelPlaces next lines).map (·.1) = labelNames lines := by
  induction lines generalizing next with
  | nil => rfl
  | cons line rest ih =>
    cases line with
    | statement s => exact ih (next + 1)
    | label position name => exact congrArg (name :: ·) (ih next)

/-- A label stands for the number of statements in front of its definition. -/
theorem exists_split_of_mem_labelPlaces {next : Nat} {lines : List Line} {name : String}
    {index : Nat} (h : (name, index) ∈ labelPlaces next lines) :
    ∃ before position after, lines = before ++ .label position name :: after ∧
      index = next + (statements before).length := by
  induction lines generalizing next with
  | nil => cases h
  | cons line rest ih =>
    cases line with
    | statement s =>
      rw [labelPlaces] at h
      obtain ⟨before, position, after, rfl, rfl⟩ := ih h
      exact ⟨.statement s :: before, position, after, rfl, by simp; omega⟩
    | label position defined =>
      rcases List.mem_cons.mp h with he | h
      · obtain ⟨rfl, rfl⟩ := Prod.mk.inj he
        exact ⟨[], position, rest, rfl, rfl⟩
      · obtain ⟨before, position', after, rfl, rfl⟩ := ih h
        exact ⟨.label position defined :: before, position', after, rfl, rfl⟩

theorem lookup_eq_none {known : Labels} {name : String} :
    known.lookup name = none ↔ name ∉ known.map (·.1) := by
  rw [List.lookup_eq_none_iff]
  constructor
  · intro h hmem
    obtain ⟨entry, hentry, rfl⟩ := List.mem_map.mp hmem
    simpa using h entry hentry
  · intro h entry hentry
    refine bne_iff_ne.mpr fun he => h ?_
    exact List.mem_map.mpr ⟨entry, hentry, he.symm⟩

theorem mem_of_lookup {known : Labels} {name : String} {index : Nat}
    (h : known.lookup name = some index) : name ∈ known.map (·.1) := by
  refine Decidable.not_not.mp fun hnot => ?_
  rw [lookup_eq_none.mpr hnot] at h
  cases h

theorem nodup_snoc {known : Labels} {name : String} {index : Nat}
    (hknown : (known.map (·.1)).Nodup) (hfresh : name ∉ known.map (·.1)) :
    ((known ++ [(name, index)]).map (·.1)).Nodup := by
  rw [List.map_append, List.nodup_append]
  refine ⟨hknown, by simp, ?_⟩
  rintro a ha b hb rfl
  obtain rfl : a = name := by simpa using hb
  exact hfresh ha

/-- **The labels are collected exactly if no name is repeated.** -/
theorem collectLabels_eq_ok {lines : List Line} {next : Nat} {known found : Labels}
    (hknown : (known.map (·.1)).Nodup) :
    collectLabels lines next known = .ok found ↔
      (known.map (·.1) ++ labelNames lines).Nodup ∧ known ++ labelPlaces next lines = found := by
  induction lines generalizing next known with
  | nil => simp [collectLabels, labelPlaces, hknown]
  | cons line rest ih =>
    cases line with
    | statement s => exact ih hknown
    | label position name =>
      rw [collectLabels]
      cases hname : known.lookup name with
      | some index =>
        refine iff_of_false nofun fun h => ?_
        exact (List.nodup_append.mp h.1).2.2 name (mem_of_lookup hname) name List.mem_cons_self rfl
      | none =>
        simp only [ih (nodup_snoc hknown (lookup_eq_none.mp hname)), labelPlaces,
          labelNames_label, List.map_append, List.map_cons, List.map_nil, List.append_assoc,
          List.singleton_append]

/-- **The first definition that repeats a name is reported.** -/
theorem collectLabels_eq_error {lines : List Line} {next : Nat} {known : Labels} {e : ResolveError}
    (hknown : (known.map (·.1)).Nodup) :
    collectLabels lines next known = .error e ↔
      ∃ before position name after, lines = before ++ .label position name :: after ∧
        (known.map (·.1) ++ labelNames before).Nodup ∧
        name ∈ known.map (·.1) ++ labelNames before ∧
        { line := position.line, problem := .duplicateLabel name } = e := by
  induction lines generalizing next known with
  | nil => simp [collectLabels]
  | cons line rest ih =>
    cases line with
    | statement s =>
      rw [collectLabels, ih hknown]
      constructor
      · rintro ⟨before, position, name, after, rfl, hrest⟩
        exact ⟨.statement s :: before, position, name, after, rfl, hrest⟩
      · rintro ⟨before, position, name, after, hsplit, hrest⟩
        rcases List.cons_eq_append_iff.mp hsplit with ⟨-, he⟩ | ⟨before, rfl, rfl⟩
        · cases he
        · exact ⟨before, position, name, after, rfl, hrest⟩
    | label place first =>
      rw [collectLabels]
      cases hfirst : known.lookup first with
      | some index =>
        have hmem := mem_of_lookup hfirst
        constructor
        · intro h
          refine ⟨[], place, first, rest, rfl, by simpa using hknown, by simpa using hmem, ?_⟩
          exact Except.error.inj h
        · rintro ⟨before, position, name, after, hsplit, hnodup, hname, rfl⟩
          rcases List.cons_eq_append_iff.mp hsplit with ⟨-, he⟩ | ⟨before, rfl, -⟩
          · cases he
            rfl
          · exact absurd rfl ((List.nodup_append.mp hnodup).2.2 first hmem first List.mem_cons_self)
      | none =>
        have hfresh := lookup_eq_none.mp hfirst
        have hnames : ∀ before, (known ++ [(first, next)]).map (·.1) ++ labelNames before =
            known.map (·.1) ++ labelNames (.label place first :: before) := by simp
        simp only [ih (nodup_snoc hknown hfresh), hnames]
        constructor
        · rintro ⟨before, position, name, after, rfl, hrest⟩
          exact ⟨.label place first :: before, position, name, after, rfl, hrest⟩
        · rintro ⟨before, position, name, after, hsplit, hnodup, hname, he⟩
          rcases List.cons_eq_append_iff.mp hsplit with ⟨rfl, hhead⟩ | ⟨before, rfl, rfl⟩
          · cases hhead
            exact absurd (by simpa using hname) hfresh
          · exact ⟨before, position, name, after, rfl, hnodup, hname, he⟩

section Places

variable {lines : List Line} {known : Labels}

theorem labels_eq_ok :
    labels lines = .ok known ↔ (labelNames lines).Nodup ∧ labelPlaces 0 lines = known :=
  collectLabels_eq_ok List.nodup_nil

/-- **A label that is found has one definition, and stands for the number of statements in front of
it.** -/
theorem defines_of_lookup (distinct : (labelNames lines).Nodup) {name : String} {index : Nat}
    (h : (labelPlaces 0 lines).lookup name = some index) :
    ∃ before after, Defines lines name before after ∧ index = (statements before).length := by
  obtain ⟨front, back, hplaces, -⟩ := List.lookup_eq_some_iff.mp h
  have hmem : (name, index) ∈ labelPlaces 0 lines := by simp [hplaces]
  obtain ⟨before, position, after, rfl, rfl⟩ := exists_split_of_mem_labelPlaces hmem
  rw [labelNames_append, labelNames_label, List.nodup_append, List.nodup_cons] at distinct
  obtain ⟨-, ⟨hafter, -⟩, hapart⟩ := distinct
  refine ⟨before, after, ⟨⟨position, rfl⟩, fun hbefore => ?_, hafter⟩, by simp⟩
  exact hapart name hbefore name List.mem_cons_self rfl

end Places

end Assembly

end RegisterMachine
