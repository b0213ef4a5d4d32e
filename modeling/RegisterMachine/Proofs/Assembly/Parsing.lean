import RegisterMachine.Assembly.Listing
import RegisterMachine.Proofs.Checks

/-!
# The grammar of listings

`Parses` gives the rules by which tokens become lines, one rule for each way in which the reader can
go on. An operand of several tokens is taken at once. The reader without limits accepts exactly the
token sequences for which the rules have a derivation.
-/

set_option autoImplicit false

namespace RegisterMachine.Assembly

open Checks

/-- The operand is written with these tokens. -/
inductive Forms : OperandText → List Token → Prop
  | register {t : Token} (kind : t.kind = .register) : Forms (.register t.text) [t]
  | number {t : Token} (kind : t.kind = .number) : Forms (.number t.text) [t]
  | name {t : Token} (kind : t.kind = .name) : Forms (.name t.text) [t]
  | bare {opening base closing : Token} (opens : opening.kind = .leftParen)
      (kind : base.kind = .register) (closes : closing.kind = .rightParen) :
      Forms (.address none base.text) [opening, base, closing]
  | address {offset opening base closing : Token} (number : offset.kind = .number)
      (opens : opening.kind = .leftParen) (kind : base.kind = .register)
      (closes : closing.kind = .rightParen) :
      Forms (.address (some offset.text) base.text) [offset, opening, base, closing]

theorem Forms.solid {o : OperandText} {ts : List Token} (h : Forms o ts) :
    ∀ t ∈ ts, t.kind ≠ .comma ∧ t.kind ≠ .lineEnd := by
  cases h <;> simp_all

/-- The operand does not go on in these tokens: a number in front of a parenthesis is an offset. -/
def Ends : OperandText → List Token → Prop
  | .number _, rest => ∀ t ∈ rest.head?, t.kind ≠ .leftParen
  | _, _ => True

/-- Tokens are read as lines. As in the reader, there may be a statement that is still taking
operands, and a comma may be allowed to follow. -/
inductive Parses : Option Statement → Bool → List Token → List Line → Prop
  | finished {comma : Bool} : Parses none comma [] []
  | last {s : Statement} {comma : Bool} : Parses (some s) comma [] [.statement s]
  | emptyLine {comma : Bool} {t : Token} {rest : List Token} {lines : List Line}
      (kind : t.kind = .lineEnd) (others : Parses none false rest lines) :
      Parses none comma (t :: rest) lines
  | label {comma : Bool} {t colon : Token} {rest : List Token} {lines : List Line}
      (kind : t.kind = .name) (marks : colon.kind = .colon) (others : Parses none false rest lines) :
      Parses none comma (t :: colon :: rest) (.label t.position t.text :: lines)
  | mnemonic {comma : Bool} {t : Token} {rest : List Token} {lines : List Line}
      (kind : t.kind = .name) (unmarked : ∀ u ∈ rest.head?, u.kind ≠ .colon)
      (others : Parses (some ⟨t.position, t.text, []⟩) false rest lines) :
      Parses none comma (t :: rest) lines
  | lineEnd {s : Statement} {comma : Bool} {t : Token} {rest : List Token} {lines : List Line}
      (kind : t.kind = .lineEnd) (others : Parses none false rest lines) :
      Parses (some s) comma (t :: rest) (.statement s :: lines)
  | comma {s : Statement} {t : Token} {rest : List Token} {lines : List Line}
      (kind : t.kind = .comma) (others : Parses (some s) false rest lines) :
      Parses (some s) true (t :: rest) lines
  | operand {s : Statement} {comma : Bool} {o : OperandText} {t : Token} {tail rest : List Token}
      {lines : List Line} (forms : Forms o (t :: tail)) (ends : Ends o rest)
      (others : Parses (some { s with operands := s.operands ++ [⟨t.position, o⟩] }) true rest lines) :
      Parses (some s) comma (t :: tail ++ rest) lines

section Reading

variable {state : Option Statement} {comma : Bool} {ts : List Token} {lines : List Line}

theorem addressBase_eq_ok {base close : Token} {r : String} :
    addressBase [base, close] = .ok r ↔
      base.kind = .register ∧ close.kind = .rightParen ∧ base.text = r := by
  obtain ⟨kind, text, p⟩ := base
  obtain ⟨kind', text', p'⟩ := close
  cases kind <;> cases kind' <;> simp [addressBase]

/-- What is read, within limits or not, is read by the rules. -/
theorem parses_of_readWithin {tally : Option Tally}
    (h : readWithin tally state comma ts = .ok lines) : Parses state comma ts lines := by
  fun_induction readWithin tally state comma ts generalizing lines with
  | case1 =>
    obtain ⟨-, -, h⟩ := bind_eq_ok.mp h
    obtain rfl := Except.ok.inj h
    exact .finished
  | case2 =>
    obtain ⟨-, -, h⟩ := bind_eq_ok.mp h
    obtain rfl := Except.ok.inj h
    exact .last
  | case4 tally comma t admitted rest kind ih => exact .emptyLine kind (ih h)
  | case5 tally comma t admitted text position rest kind ih =>
    simp only [bind_eq_ok, pure_eq, Except.ok.injEq] at h
    obtain ⟨others, hothers, rfl⟩ := h
    exact .label kind rfl (ih hothers)
  | case6 tally comma t admitted rest unmarked kind ih =>
    refine .mnemonic kind (fun u hu hcolon => ?_) (ih h)
    cases rest with
    | nil => cases hu
    | cons v rest =>
      obtain rfl : v = u := Option.some.inj hu
      obtain ⟨_, text, position⟩ := v
      subst hcolon
      exact unmarked text position rest rfl
  | case9 tally s comma t admitted rest kind ih =>
    simp only [bind_eq_ok, pure_eq, Except.ok.injEq] at h
    obtain ⟨others, hothers, rfl⟩ := h
    exact .lineEnd kind (ih hothers)
  | case10 tally s t rest kind admitted ih => exact .comma kind (ih h)
  | case12 tally s comma t take admitted rest kind =>
    rename_i ih
    exact .operand (.register kind) trivial (ih h)
  | case13 tally s comma t take admitted rest kind =>
    rename_i ih
    exact .operand (.name kind) trivial (ih h)
  | case14 tally s comma t take admitted base close rest kind =>
    rename_i ih
    obtain ⟨r, hbase, h⟩ := bind_eq_ok.mp h
    obtain ⟨hregister, hcloses, rfl⟩ := addressBase_eq_ok.mp hbase
    exact .operand (.bare kind hregister hcloses) trivial (ih _ h)
  | case16 tally s comma t take admitted text position base close rest kind =>
    rename_i ih
    obtain ⟨r, hbase, h⟩ := bind_eq_ok.mp h
    obtain ⟨hregister, hcloses, rfl⟩ := addressBase_eq_ok.mp hbase
    exact .operand (.address kind rfl hregister hcloses) trivial (ih _ h)
  | case18 tally s comma t take admitted rest hnext hnext' kind =>
    rename_i ih
    refine .operand (.number kind) (fun u hu hopens => ?_) (ih h)
    cases rest with
    | nil => cases hu
    | cons v rest =>
      obtain rfl : v = u := Option.some.inj hu
      obtain ⟨_, text, position⟩ := v
      subst hopens
      exact hnext' text position rest rfl
  | case15 | case17 => simp [discard, bind_eq_ok] at h
  | case3 | case7 | case8 | case11 | case19 => cases h

/-! One equation for each rule: the reader checks its tally, then goes on as the rule says. -/

section Rules

variable (tally : Option Tally) (comma : Bool) {t : Token} {rest : List Token}

theorem readWithin_emptyLine (kind : t.kind = .lineEnd) :
    readWithin tally none comma (t :: rest) = (do
      allow tally none comma t
      readWithin (tally.map Tally.addLineEnd) none false rest) := by
  obtain ⟨_, text, position⟩ := t
  subst kind
  conv_lhs => unfold readWithin
  cases allow tally none comma _ <;> rfl

theorem readWithin_label {colon : Token} (kind : t.kind = .name) (marks : colon.kind = .colon) :
    readWithin tally none comma (t :: colon :: rest) = (do
      allow tally none comma t
      return .label t.position t.text ::
        (← readWithin (tally.map Tally.addLine) none false rest)) := by
  obtain ⟨_, text, position⟩ := t
  obtain ⟨_, text', position'⟩ := colon
  subst kind marks
  conv_lhs => unfold readWithin
  cases allow tally none comma _ <;> rfl

theorem readWithin_mnemonic (kind : t.kind = .name)
    (unmarked : ∀ u ∈ rest.head?, u.kind ≠ .colon) :
    readWithin tally none comma (t :: rest) = (do
      allow tally none comma t
      readWithin tally (some ⟨t.position, t.text, []⟩) false rest) := by
  obtain ⟨_, text, position⟩ := t
  subst kind
  conv_lhs => unfold readWithin
  cases allow tally none comma _ with
  | error e => rfl
  | ok =>
    cases rest with
    | nil => rfl
    | cons u rest =>
      have hcolon : u.kind ≠ .colon := unmarked u rfl
      obtain ⟨kind, text', position'⟩ := u
      cases kind with
      | colon => exact absurd rfl hcolon
      | _ => rfl

theorem readWithin_lineEnd (s : Statement) (kind : t.kind = .lineEnd) :
    readWithin tally (some s) comma (t :: rest) = (do
      allow tally (some s) comma t
      return .statement s ::
        (← readWithin (tally.map fun n => n.addLine.addLineEnd) none false rest)) := by
  obtain ⟨_, text, position⟩ := t
  subst kind
  conv_lhs => unfold readWithin
  cases allow tally (some s) comma _ <;> rfl

theorem readWithin_comma (s : Statement) (kind : t.kind = .comma) :
    readWithin tally (some s) true (t :: rest) = (do
      allow tally (some s) true t
      readWithin tally (some s) false rest) := by
  obtain ⟨_, text, position⟩ := t
  subst kind
  conv_lhs => unfold readWithin
  cases allow tally (some s) true _ <;> rfl

/-- The tokens of an operand are taken together. -/
theorem readWithin_operand (s : Statement) {o : OperandText} {tail : List Token}
    (forms : Forms o (t :: tail)) (ends : Ends o rest) :
    readWithin tally (some s) comma (t :: tail ++ rest) = (do
      allow tally (some s) comma t
      readWithin tally (some { s with operands := s.operands ++ [⟨t.position, o⟩] }) true rest) := by
  obtain ⟨tokenKind, text, position⟩ := t
  rw [List.cons_append]
  conv_lhs => unfold readWithin
  cases allow tally (some s) comma _ with
  | error e => rfl
  | ok =>
    cases forms with
    | register kind | name kind =>
      subst kind
      rfl
    | bare opens kind closes =>
      subst opens
      show (addressBase [_, _] >>= fun _ => _) = _
      rw [addressBase_eq_ok.mpr ⟨kind, closes, rfl⟩]
      rfl
    | @address _ opening _ _ number opens kind closes =>
      obtain ⟨_, text', position'⟩ := opening
      subst number opens
      show (addressBase [_, _] >>= fun _ => _) = _
      rw [addressBase_eq_ok.mpr ⟨kind, closes, rfl⟩]
      rfl
    | number kind =>
      subst kind
      cases rest with
      | nil => rfl
      | cons u rest =>
        have hopens : u.kind ≠ .leftParen := ends u rfl
        obtain ⟨kind, text', position'⟩ := u
        cases kind with
        | leftParen => exact absurd rfl hopens
        | _ => rfl

end Rules

/-- Without a tally the reader takes whatever the rules allow. -/
theorem readLines_of_parses (h : Parses state comma ts lines) :
    readLines state comma ts = .ok lines := by
  induction h with
  | finished => rfl
  | last => rfl
  | emptyLine kind _ ih =>
    rw [readLines, readWithin_emptyLine _ _ kind]
    exact ih
  | @label comma t colon rest lines kind marks _ ih =>
    rw [readLines, readWithin_label _ _ kind marks]
    show (readLines none false rest >>= fun lines => pure (.label t.position t.text :: lines)) = _
    rw [ih]
    rfl
  | mnemonic kind unmarked _ ih =>
    rw [readLines, readWithin_mnemonic _ _ kind unmarked]
    exact ih
  | @lineEnd s comma t rest lines kind _ ih =>
    rw [readLines, readWithin_lineEnd _ _ _ kind]
    show (readLines none false rest >>= fun lines => pure (.statement s :: lines)) = _
    rw [ih]
    rfl
  | comma kind _ ih =>
    rw [readLines, readWithin_comma _ _ kind]
    exact ih
  | operand forms ends _ ih =>
    rw [readLines, readWithin_operand _ _ _ forms ends]
    exact ih

/-- **The reader follows the rules.** -/
theorem readLines_eq_ok : readLines state comma ts = .ok lines ↔ Parses state comma ts lines :=
  ⟨parses_of_readWithin, readLines_of_parses⟩

/-- Within its limits, `parse` reads a text as `readListing` does. -/
theorem readListing_of_parse {source : String} (h : parse source = .ok lines) :
    readListing source = .ok lines := by
  unfold parse at h
  unfold readListing
  split at h
  · cases h
  · exact readLines_of_parses (parses_of_readWithin h)

/-- A statement that is taking operands becomes the first line, with more of them. -/
theorem Parses.pending (h : Parses state comma ts lines) {s : Statement} (hstate : state = some s) :
    ∃ operands others,
      lines = .statement { s with operands := s.operands ++ operands } :: others := by
  induction h generalizing s with
  | finished | emptyLine | label | mnemonic => cases hstate
  | last =>
    obtain rfl := Option.some.inj hstate
    exact ⟨[], [], by rw [List.append_nil]⟩
  | lineEnd kind others ih =>
    obtain rfl := Option.some.inj hstate
    exact ⟨[], _, by rw [List.append_nil]⟩
  | comma kind others ih => exact ih hstate
  | @operand _ _ o t _ _ _ forms ends others ih =>
    obtain rfl := Option.some.inj hstate
    obtain ⟨operands, further, rfl⟩ := ih rfl
    refine ⟨⟨t.position, o⟩ :: operands, further, ?_⟩
    simp only [List.append_assoc, List.singleton_append]

end Reading

end RegisterMachine.Assembly
