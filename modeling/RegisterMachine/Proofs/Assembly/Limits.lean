import Mathlib.Data.List.Infix
import RegisterMachine.Proofs.Assembly.Lexing
import RegisterMachine.Proofs.Assembly.Resolution

/-!
# Limits of repetition

`parse` reads a text exactly as `readListing` does, as long as there are fewer than
`repetitionLimit` lines in the text, operands in each statement and line ends in a row. With more of
them it refuses the text, and names what there is too much of.
-/

set_option autoImplicit false

namespace RegisterMachine.Assembly

open Checks

/-! ### Line ends in a row -/

/-- Among the tokens, too many line ends follow one another. -/
def Crowded (kinds : List TokenKind) : Prop :=
  List.replicate repetitionLimit .lineEnd <:+: kinds

instance (kinds : List TokenKind) : Decidable (Crowded kinds) :=
  inferInstanceAs (Decidable (_ <:+: _))

theorem repetitionLimit_pos : 0 < repetitionLimit := by decide

theorem Crowded.le_length {kinds : List TokenKind} (h : Crowded kinds) :
    repetitionLimit ≤ kinds.length := by
  simpa using h.length_le

theorem crowded_replicate {n : Nat} :
    Crowded (List.replicate n .lineEnd) ↔ repetitionLimit ≤ n := by
  constructor
  · intro h
    simpa using h.le_length
  · intro h
    have hsplit : List.replicate n TokenKind.lineEnd =
        List.replicate repetitionLimit .lineEnd ++
          List.replicate (n - repetitionLimit) .lineEnd := by
      rw [List.replicate_append_replicate, Nat.add_sub_cancel' h]
    rw [Crowded, hsplit]
    exact (List.prefix_append _ _).isInfix

theorem not_crowded_nil : ¬ Crowded [] :=
  fun h => absurd h.le_length (by decide)

theorem not_crowded_lineEnd : ¬ Crowded [.lineEnd] :=
  fun h => absurd h.le_length (by decide)

/-- A row of line ends does not go on behind another token. -/
theorem crowded_append_cons {k : TokenKind} (hk : k ≠ .lineEnd) {front kinds : List TokenKind} :
    Crowded (front ++ k :: kinds) ↔ Crowded front ∨ Crowded kinds := by
  constructor
  · rintro ⟨before, behind, h⟩
    rw [List.append_assoc] at h
    rcases List.append_eq_append_iff.mp h with ⟨between, rfl, hrow⟩ | ⟨between, rfl, hrow⟩
    · -- The row starts in `front`, and does not reach `k`.
      left
      rcases List.append_eq_append_iff.mp hrow with ⟨rest, rfl, -⟩ | ⟨rest, hsplit, hrest⟩
      · exact ⟨before, rest, List.append_assoc ..⟩
      · cases rest with
        | nil => exact ⟨before, [], by rw [List.append_nil, hsplit, List.append_nil]⟩
        | cons k' rest =>
          obtain ⟨rfl, -⟩ := List.cons.inj hrest
          have hmem : k ∈ List.replicate repetitionLimit TokenKind.lineEnd := by simp [hsplit]
          exact absurd (List.eq_of_mem_replicate hmem) hk
    · -- The row starts behind `front`, hence behind `k`.
      right
      cases between with
      | nil =>
        have hhead := congrArg List.head? hrow
        rw [List.nil_append, List.head?_append, List.head?_replicate,
          if_neg repetitionLimit_pos.ne'] at hhead
        exact absurd (Option.some.inj hhead) hk
      | cons k' between =>
        obtain ⟨-, rfl⟩ := List.cons.inj hrow
        exact ⟨between, behind, List.append_assoc ..⟩
  · rintro (h | h)
    · exact h.trans (List.prefix_append _ _).isInfix
    · exact h.trans ((List.suffix_cons _ _).trans (List.suffix_append _ _)).isInfix

/-- The tokens of an operand or of a label contain no line end. -/
theorem crowded_append {solid kinds : List TokenKind} (h : ∀ k ∈ solid, k ≠ .lineEnd) :
    Crowded (solid ++ kinds) ↔ Crowded kinds := by
  induction solid with
  | nil => rfl
  | cons k solid ih =>
    obtain ⟨hk, hsolid⟩ := List.forall_mem_cons.mp h
    rw [List.cons_append, ← List.nil_append (k :: _), crowded_append_cons hk, ih hsolid]
    exact or_iff_right not_crowded_nil

/-- Lines that each start with a name and end in one line end. -/
theorem not_crowded_flatMap {α : Type} {f : α → List TokenKind}
    (h : ∀ a, ∃ solid, f a = .name :: (solid ++ [.lineEnd]) ∧ ∀ k ∈ solid, k ≠ .lineEnd)
    (lines : List α) : ¬ Crowded (lines.flatMap f) := by
  have hname : TokenKind.name ≠ .lineEnd := by decide
  induction lines with
  | nil => exact not_crowded_nil
  | cons line lines ih =>
    obtain ⟨solid, hline, hsolid⟩ := h line
    rw [List.flatMap_cons, hline, List.cons_append, List.append_assoc, ← List.cons_append,
      crowded_append (List.forall_mem_cons.mpr ⟨hname, hsolid⟩)]
    cases lines with
    | nil => exact not_crowded_lineEnd
    | cons next lines =>
      -- The next line starts with a name, where the row of line ends is over.
      obtain ⟨solid', hnext, -⟩ := h next
      rw [List.flatMap_cons, hnext] at ih ⊢
      show ¬ Crowded ([.lineEnd] ++ .name :: _)
      rw [crowded_append_cons hname]
      rintro (hfirst | hothers)
      · exact not_crowded_lineEnd hfirst
      · exact ih (hothers.trans (List.suffix_cons _ _).isInfix)

/-! ### What there is too much of -/

/-- The line ends in front of the next token, as the reader has counted them. Inside a statement
they no longer count. -/
def Tally.row (n : Tally) : Option Statement → List TokenKind
  | none => List.replicate n.lineEnds .lineEnd
  | some _ => []

/-- What there is too much of when the tokens are read as these lines. -/
def Tally.Exceeds (n : Tally) (state : Option Statement) (ts : List Token) (lines : List Line) :
    Repetition → Prop
  | .lineEnds => Crowded (n.row state ++ ts.map Token.kind)
  | .lines => repetitionLimit ≤ n.lines + lines.length
  | .operands => ∃ s, .statement s ∈ lines ∧ repetitionLimit ≤ s.operands.length

/-- The result is the lines, or a refusal over something that exceeds the limit. -/
def Settled (exceeds : Repetition → Prop) (result : Except SyntaxError (List Line))
    (lines : List Line) : Prop :=
  (∃ what p, exceeds what ∧ result = .error (.excessive what p)) ∨
    (∀ what, ¬ exceeds what) ∧ result = .ok lines

section Settling

variable {exceeds exceeds' : Repetition → Prop} {result : Except SyntaxError (List Line)}
  {lines : List Line}

theorem Settled.congr (h : Settled exceeds' result lines)
    (same : ∀ what, exceeds what ↔ exceeds' what) : Settled exceeds result lines := by
  rwa [show exceeds = exceeds' from funext fun what => propext (same what)]

theorem Settled.cons (h : Settled exceeds result lines) (line : Line) :
    Settled exceeds (do return line :: (← result)) (line :: lines) := by
  rcases h with ⟨what, p, hexceeds, rfl⟩ | ⟨hnone, rfl⟩
  · exact .inl ⟨what, p, hexceeds, rfl⟩
  · exact .inr ⟨hnone, rfl⟩

variable {state : Option Statement} {comma : Bool} {ts : List Token} {n : Tally}

/-- What the reader refuses is too much. -/
theorem exceeds_of_excess? (h : Parses state comma ts lines) {what : Repetition}
    (hwhat : n.excess? state comma ts.head? = some what) : n.Exceeds state ts lines what := by
  cases state with
  | none =>
    simp only [Tally.excess?] at hwhat
    split_ifs at hwhat with hrow hends hlines
    · obtain rfl := Option.some.inj hwhat
      exact (crowded_replicate.mpr hrow).trans (List.prefix_append _ _).isInfix
    · obtain rfl := Option.some.inj hwhat
      exact Nat.le_add_right_of_le hlines
  | some s =>
    obtain ⟨operands, others, rfl⟩ := h.pending rfl
    simp only [Tally.excess?] at hwhat
    split_ifs at hwhat with hcomma hoperands hlines
    · obtain rfl := Option.some.inj hwhat
      refine ⟨_, List.mem_cons_self, ?_⟩
      rw [List.length_append]
      exact Nat.le_add_right_of_le hoperands
    · obtain rfl := Option.some.inj hwhat
      simp only [Bool.and_eq_true, decide_eq_true_eq] at hlines
      rw [Tally.Exceeds, List.length_cons]
      omega

/-- A rule of the grammar settles what is read if its continuation does. -/
theorem Settled.step (h : Parses state comma ts lines)
    (onward : n.excess? state comma ts.head? = none →
      Settled (n.Exceeds state ts lines) result lines) :
    Settled (n.Exceeds state ts lines)
      (do allow (some n) state comma ts.head?; result) lines := by
  cases hwhat : n.excess? state comma ts.head? with
  | some what =>
    simp only [allow, hwhat]
    exact .inl ⟨what, _, exceeds_of_excess? h hwhat, rfl⟩
  | none =>
    simp only [allow, hwhat]
    exact onward hwhat

end Settling

/-! ### One lemma for each rule: what exceeds before it, exceeds behind it -/

section Rules

variable {n : Tally} {s : Statement} {comma : Bool} {t : Token} {rest : List Token}
  {lines : List Line}

/-- In front of a line, neither the line ends nor the lines so far are too many. -/
theorem row_not_crowded {next : Option Token} (hfree : n.excess? none comma next = none) :
    ¬ Crowded (n.row none) := by
  simp only [Tally.excess?] at hfree
  split_ifs at hfree with hrow
  all_goals exact fun h => hrow (crowded_replicate.mp h)

/-- The row in front of a line is over where the line starts. -/
theorem crowded_row_name {next : Option Token} (hfree : n.excess? none comma next = none)
    {kinds : List TokenKind} : Crowded (n.row none ++ .name :: kinds) ↔ Crowded kinds := by
  rw [crowded_append_cons (by decide), or_iff_right (row_not_crowded hfree)]

theorem exceeds_finished (hfree : n.excess? none comma none = none) (what : Repetition) :
    ¬ n.Exceeds none [] [] what := by
  cases what with
  | lineEnds =>
    rw [Tally.Exceeds, List.map_nil, List.append_nil]
    exact row_not_crowded hfree
  | lines =>
    simp only [Tally.excess?] at hfree
    split_ifs at hfree with hrow hends hlines
    · cases hends
    · exact hlines
  | operands => rintro ⟨s, hs, -⟩; cases hs

theorem exceeds_last (hfree : n.excess? (some s) comma none = none) (what : Repetition) :
    ¬ n.Exceeds (some s) [] [.statement s] what := by
  simp only [Tally.excess?, Option.any_none, Bool.and_false, Bool.false_eq_true, if_false,
    Option.isNone_none, Bool.true_and, decide_eq_true_eq] at hfree
  split_ifs at hfree with hoperands hlines
  cases what with
  | lineEnds => exact not_crowded_nil
  | lines => exact hlines
  | operands =>
    rintro ⟨s', hs', hcount⟩
    obtain rfl := Line.statement.inj (List.mem_singleton.mp hs')
    exact hoperands hcount

theorem exceeds_emptyLine (kind : t.kind = .lineEnd) (what : Repetition) :
    n.Exceeds none (t :: rest) lines what ↔ n.addLineEnd.Exceeds none rest lines what := by
  cases what with
  | lineEnds =>
    simp only [Tally.Exceeds, Tally.row, Tally.addLineEnd, List.map_cons, kind,
      List.replicate_succ', List.append_assoc, List.singleton_append]
  | lines => rfl
  | operands => rfl

theorem exceeds_label {colon : Token} (kind : t.kind = .name) (marks : colon.kind = .colon)
    (hfree : n.excess? none comma t = none) (what : Repetition) :
    n.Exceeds none (t :: colon :: rest) (.label t.position t.text :: lines) what ↔
      n.addLine.Exceeds none rest lines what := by
  cases what with
  | lineEnds =>
    have hcolon : TokenKind.colon ≠ .lineEnd := by decide
    simp only [Tally.Exceeds, List.map_cons, kind, marks]
    rw [crowded_row_name hfree]
    exact crowded_append (List.forall_mem_singleton.mpr hcolon)
  | lines =>
    simp only [Tally.Exceeds, Tally.addLine, List.length_cons]
    omega
  | operands => simp [Tally.Exceeds]

theorem exceeds_mnemonic (kind : t.kind = .name) (hfree : n.excess? none comma t = none)
    (what : Repetition) :
    n.Exceeds none (t :: rest) lines what ↔ n.Exceeds (some s) rest lines what := by
  cases what with
  | lineEnds =>
    simp only [Tally.Exceeds, List.map_cons, kind]
    exact crowded_row_name hfree
  | lines => rfl
  | operands => rfl

theorem exceeds_lineEnd (kind : t.kind = .lineEnd) (hfree : n.excess? (some s) comma t = none)
    (what : Repetition) :
    n.Exceeds (some s) (t :: rest) (.statement s :: lines) what ↔
      n.addLine.addLineEnd.Exceeds none rest lines what := by
  cases what with
  | lineEnds =>
    simp only [Tally.Exceeds, List.map_cons, kind]
    rfl
  | lines =>
    simp only [Tally.Exceeds, Tally.addLine, Tally.addLineEnd, List.length_cons]
    omega
  | operands =>
    have hcount : ¬ repetitionLimit ≤ s.operands.length := by
      simp only [Tally.excess?, kind, Option.any_some, reduceCtorEq, decide_false, Bool.and_false,
        Bool.false_eq_true, if_false] at hfree
      split_ifs at hfree with hoperands
      all_goals exact hoperands
    constructor
    · rintro ⟨s', hs', hmany⟩
      rcases List.mem_cons.mp hs' with heq | hs'
      · obtain rfl := Line.statement.inj heq
        exact absurd hmany hcount
      · exact ⟨s', hs', hmany⟩
    · rintro ⟨s', hs', hmany⟩
      exact ⟨s', List.mem_cons_of_mem _ hs', hmany⟩

/-- Inside a statement, what is read as a part of it does not count. -/
theorem exceeds_inside {s' : Statement} {solid : List Token}
    (h : ∀ u ∈ solid, u.kind ≠ .lineEnd) (what : Repetition) :
    n.Exceeds (some s) (solid ++ rest) lines what ↔ n.Exceeds (some s') rest lines what := by
  cases what with
  | lineEnds =>
    simp only [Tally.Exceeds, Tally.row, List.nil_append, List.map_append]
    exact crowded_append (List.forall_mem_map.mpr h)
  | lines => rfl
  | operands => rfl

end Rules

/-- **A bounded reader accepts what the rules allow, or names what exceeds the limit.** -/
theorem readWithin_settled {state : Option Statement} {comma : Bool} {ts : List Token}
    {lines : List Line} (h : Parses state comma ts lines) (n : Tally) :
    Settled (n.Exceeds state ts lines) (readWithin (some n) state comma ts) lines := by
  have hparses := h
  induction h generalizing n with
  | finished => exact .step hparses fun hfree => .inr ⟨exceeds_finished hfree, rfl⟩
  | last => exact .step hparses fun hfree => .inr ⟨exceeds_last hfree, rfl⟩
  | emptyLine kind others ih =>
    rw [readWithin_emptyLine _ _ kind]
    exact .step hparses fun _ => (ih _ others).congr (exceeds_emptyLine kind)
  | label kind marks others ih =>
    rw [readWithin_label _ _ kind marks]
    exact .step hparses fun hfree => ((ih _ others).cons _).congr (exceeds_label kind marks hfree)
  | mnemonic kind unmarked others ih =>
    rw [readWithin_mnemonic _ _ kind unmarked]
    exact .step hparses fun hfree => (ih _ others).congr (exceeds_mnemonic kind hfree)
  | lineEnd kind others ih =>
    rw [readWithin_lineEnd _ _ _ kind]
    exact .step hparses fun hfree => ((ih _ others).cons _).congr (exceeds_lineEnd kind hfree)
  | @comma s t rest _ kind others ih =>
    rw [readWithin_comma _ _ kind]
    have hsolid : ∀ u ∈ [t], u.kind ≠ .lineEnd := by simp [kind]
    exact .step hparses fun _ => (ih _ others).congr (exceeds_inside hsolid)
  | operand forms ends others ih =>
    rw [readWithin_operand _ _ _ forms ends]
    have hsolid := fun u hu => (forms.solid u hu).2
    exact .step hparses fun _ => (ih _ others).congr (exceeds_inside hsolid)

/-! ### Texts -/

/-- The kinds of the significant tokens of a text; none if it has an unreadable place. -/
def tokenKinds (source : String) : List TokenKind :=
  match tokens source with
  | .ok all => (all.filter Token.isSignificant).map Token.kind
  | .error _ => []

theorem tokenKinds_of_spells {source : String} {spellings : List (TokenKind × String)}
    (h : Spells (terminated source) spellings) : tokenKinds source = spellings.map Prod.fst := by
  obtain ⟨all, hscan, rfl⟩ := h {}
  rw [tokenKinds, tokens, hscan, List.map_map]
  rfl

section Texts

variable {source : String} {lines : List Line} {code : List Instruction}

/-- What there is too much of in a text that is read as these lines. -/
def Excessive (source : String) (lines : List Line) : Repetition → Prop
  | .lineEnds => Crowded (tokenKinds source)
  | .lines => repetitionLimit ≤ lines.length
  | .operands => ∃ s, .statement s ∈ lines ∧ repetitionLimit ≤ s.operands.length

theorem parse_settled (read : readListing source = .ok lines) :
    Settled (Excessive source lines) (parse source) lines := by
  unfold readListing at read
  split at read
  · cases read
  · next all hall =>
    have hsettled := readWithin_settled (parses_of_readWithin read)
      { finish := (terminated source).foldl Position.advance {} }
    rw [parse, hall]
    refine hsettled.congr fun what => ?_
    cases what with
    | lineEnds => rw [Excessive, tokenKinds, hall]; rfl
    | lines => rw [Excessive, Tally.Exceeds, Nat.zero_add]
    | operands => rfl

/-- **`parse` accepts the listings in which nothing is repeated too often.** -/
theorem parse_eq_ok : parse source = .ok lines ↔
    readListing source = .ok lines ∧ ∀ what, ¬ Excessive source lines what := by
  constructor
  · intro h
    have read := readListing_of_parse h
    rcases parse_settled read with ⟨what, p, -, hrefused⟩ | ⟨hnone, -⟩
    · rw [hrefused] at h
      cases h
    · exact ⟨read, hnone⟩
  · rintro ⟨read, hnone⟩
    rcases parse_settled read with ⟨what, p, hexceeds, -⟩ | ⟨-, hparse⟩
    · exact absurd hexceeds (hnone what)
    · exact hparse

theorem mem_statements {s : Statement} : s ∈ statements lines ↔ .statement s ∈ lines := by
  simp only [statements, List.mem_filterMap]
  constructor
  · rintro ⟨line, hline, hs⟩
    cases line with
    | label => cases hs
    | statement s' =>
      obtain rfl := Option.some.inj hs
      exact hline
  · exact fun h => ⟨_, h, rfl⟩

/-- No operation takes too many operands. -/
theorem operands_not_excessive (resolved : resolve lines = .ok code) :
    ¬ Excessive source lines .operands := by
  rintro ⟨s, hs, hmany⟩
  obtain ⟨known, -, hcode⟩ := bind_eq_ok.mp resolved
  obtain ⟨hlen, hpairs⟩ := List.forall₂_iff_get.mp (forall₂_resolveLines hcode)
  obtain ⟨n, hn, rfl⟩ := List.getElem_of_mem (mem_statements.mpr hs)
  obtain ⟨-, hcount, -⟩ := resolveStatement_eq_ok.mp (hpairs n hn (hlen ▸ hn))
  have hfew : (statements lines)[n].operands.length ≤ 3 := hcount ▸ shape_length_le _
  have hlimit : 3 < repetitionLimit := by decide
  omega

/-- A program has fewer instructions than the limit. -/
theorem length_lt_of_assemble (h : assemble source = .ok code) : code.length < repetitionLimit := by
  obtain ⟨lines, hparse, resolved⟩ := assemble_eq_ok.mp h
  obtain ⟨-, hnone⟩ := parse_eq_ok.mp hparse
  have hlines : lines.length < repetitionLimit := Nat.not_le.mp (hnone .lines)
  obtain ⟨known, -, hcode⟩ := bind_eq_ok.mp resolved
  rw [length_resolveLines hcode]
  exact Nat.lt_of_le_of_lt (List.length_filterMap_le ..) hlines

/-- So labels always fit 32 bits, and assembled code is canonical. -/
theorem canonical_of_assemble (h : assemble source = .ok code) : ∀ i ∈ code, Canonical i := by
  have hcount : statementCount source < 2 ^ 31 := by
    rw [statementCount_eq_length h]
    exact (length_lt_of_assemble h).trans (by decide)
  exact assemble_canonical hcount h

/-- **Of the listings that are programs, the assembler accepts those within the limits**, and tells
which limit the others exceed. -/
theorem assemble_settled (read : readListing source = .ok lines)
    (resolved : resolve lines = .ok code) :
    (¬ Crowded (tokenKinds source) ∧ lines.length < repetitionLimit ∧ assemble source = .ok code) ∨
      (Crowded (tokenKinds source) ∧
        ∃ p, assemble source = .error (.unread (.excessive .lineEnds p))) ∨
      (repetitionLimit ≤ lines.length ∧
        ∃ p, assemble source = .error (.unread (.excessive .lines p))) := by
  rcases parse_settled read with ⟨what, p, hexceeds, hparse⟩ | ⟨hnone, hparse⟩
  · have hrefused : assemble source = .error (.unread (.excessive what p)) := by
      rw [assemble, hparse]
    cases what with
    | lineEnds => exact .inr (.inl ⟨hexceeds, p, hrefused⟩)
    | lines => exact .inr (.inr ⟨hexceeds, p, hrefused⟩)
    | operands => exact absurd hexceeds (operands_not_excessive resolved)
  · have haccepted : assemble source = .ok code := assemble_eq_ok.mpr ⟨lines, hparse, resolved⟩
    exact .inl ⟨hnone .lineEnds, Nat.not_le.mp (hnone .lines), haccepted⟩

end Texts

end RegisterMachine.Assembly
