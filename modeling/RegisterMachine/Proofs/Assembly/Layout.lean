import Mathlib.Logic.Relation
import RegisterMachine.Proofs.Assembly.Acceptance
import RegisterMachine.Proofs.Assembly.Spacing
import RegisterMachine.Proofs.Assembly.Writing

/-!
# Layout does not matter

A text that is a program stays the same program under every change of its layout. Looser tokens are
read as lines that say the same, with one exception: a comma may be all that keeps a number apart
from an address without an offset, and the number becomes the offset when it goes. No operation takes
such operands, so no program has them.
-/

set_option autoImplicit false

namespace RegisterMachine.Assembly

open Checks

/-! ### Looser tokens -/

/-- The second tokens are looser than the first, wherever they stand. -/
def Looser (starts : Bool) (ts ts' : List Token) : Prop :=
  Sparser starts (ts.map Token.spelling) (ts'.map Token.spelling)

section Looser

variable {starts : Bool} {t : Token} {ts ts' rest : List Token}

theorem Looser.atStart (h : Looser starts ts ts') : Looser true ts ts' :=
  Sparser.atStart h

theorem Looser.nil (h : Looser false [] ts') : ts' = [] := by
  unfold Looser at h
  rw [List.map_nil] at h
  generalize hys : ts'.map Token.spelling = ys at h
  cases h
  exact List.map_eq_nil_iff.mp hys

/-- Inside a line a token is kept, unless it is a comma. -/
theorem Looser.uncons (h : Looser false (t :: ts) ts') :
    (t.kind = .comma ∧ Looser false ts ts') ∨
      ∃ t' rest', ts' = t' :: rest' ∧ t'.spelling = t.spelling ∧
        Looser (t.kind = .lineEnd) ts rest' := by
  unfold Looser at h
  rw [List.map_cons] at h
  generalize hx : t.spelling = x at h
  generalize hys : ts'.map Token.spelling = ys at h
  cases h with
  | comma others =>
    subst hys
    exact .inl ⟨congrArg Prod.fst hx, others⟩
  | keep others =>
    obtain ⟨t', rest', rfl, ht', rfl⟩ := List.map_eq_cons_iff.mp hys
    subst hx
    exact .inr ⟨t', rest', rfl, ht', others⟩

theorem Looser.cons (h : Looser false (t :: ts) ts') (hcomma : t.kind ≠ .comma) :
    ∃ t' rest', ts' = t' :: rest' ∧ t'.spelling = t.spelling ∧
      Looser (t.kind = .lineEnd) ts rest' :=
  h.uncons.resolve_left fun hdropped => hcomma hdropped.1

theorem Looser.comma (h : Looser false (t :: ts) ts') (hcomma : t.kind = .comma) :
    Looser false ts ts' ∨ ∃ t' rest', ts' = t' :: rest' ∧ t'.kind = .comma ∧
      Looser false ts rest' := by
  rcases h.uncons with ⟨-, hothers⟩ | ⟨t', rest', rfl, ht', hrest⟩
  · exact .inl hothers
  · have hkind : t'.kind = t.kind := congrArg Prod.fst ht'
    rw [hcomma] at hkind hrest
    exact .inr ⟨t', rest', rfl, hkind, hrest⟩

/-- Tokens that are neither commas nor line ends stay together. -/
theorem Looser.append (taken : List Token) (h : Looser false (taken ++ rest) ts')
    (solid : ∀ t ∈ taken, t.kind ≠ .comma ∧ t.kind ≠ .lineEnd) :
    ∃ taken' rest', ts' = taken' ++ rest' ∧
      taken'.map Token.spelling = taken.map Token.spelling ∧ Looser false rest rest' := by
  induction taken generalizing ts' with
  | nil => exact ⟨[], ts', rfl, rfl, h⟩
  | cons t taken ih =>
    obtain ⟨⟨hcomma, hends⟩, hothers⟩ := List.forall_mem_cons.mp solid
    obtain ⟨t', others', rfl, ht', hlooser⟩ := h.cons hcomma
    rw [decide_eq_false hends] at hlooser
    obtain ⟨taken', rest', rfl, htaken, hrest⟩ := ih hlooser hothers
    exact ⟨t' :: taken', rest', rfl, by rw [List.map_cons, List.map_cons, ht', htaken], hrest⟩

/-- Line ends that were put in front. -/
theorem Looser.skip (h : Looser starts ts ts') (hhead : ∀ t ∈ ts.head?, t.kind ≠ .lineEnd) :
    ∃ ends rest', ts' = ends ++ rest' ∧ (∀ t ∈ ends, t.kind = .lineEnd) ∧
      Looser false ts rest' := by
  unfold Looser at h
  generalize hxs : ts.map Token.spelling = xs at h
  generalize hys : ts'.map Token.spelling = ys at h
  induction h generalizing ts' with
  | nil => exact ⟨[], ts', rfl, nofun, by rw [Looser, hxs, hys]; exact .nil⟩
  | keep others => exact ⟨[], ts', rfl, nofun, by rw [Looser, hxs, hys]; exact .keep others⟩
  | comma others => exact ⟨[], ts', rfl, nofun, by rw [Looser, hxs, hys]; exact .comma others⟩
  | added others ih =>
    obtain ⟨t', others', rfl, ht', rfl⟩ := List.map_eq_cons_iff.mp hys
    obtain ⟨ends, rest', rfl, hends, hrest⟩ := ih hxs rfl
    exact ⟨t' :: ends, rest', rfl,
      List.forall_mem_cons.mpr ⟨congrArg Prod.fst ht', hends⟩, hrest⟩
  | dropped =>
    obtain ⟨t, _, rfl, ht, -⟩ := List.map_eq_cons_iff.mp hxs
    exact absurd (congrArg Prod.fst ht) (hhead t rfl)

/-- A line end in front of a line says nothing. -/
theorem Looser.lineEnd (h : Looser starts (t :: ts) ts') (hends : t.kind = .lineEnd) :
    Looser true ts ts' := by
  unfold Looser at h ⊢
  rw [List.map_cons] at h
  generalize hxs : t.spelling :: ts.map Token.spelling = xs at h
  generalize ts'.map Token.spelling = ys at h ⊢
  induction h with
  | nil => cases hxs
  | comma =>
    have hcomma : t.kind = .comma := congrArg Prod.fst (List.cons.inj hxs).1
    rw [hends] at hcomma
    cases hcomma
  | added others ih => exact .added (ih hxs)
  | dropped others => exact (List.cons.inj hxs).2 ▸ others
  | @keep _ x _ _ others =>
    obtain ⟨rfl, rfl⟩ := List.cons.inj hxs
    rw [Token.spelling, hends] at others ⊢
    exact .added others

theorem Looser.head_kind (h : Looser false ts ts') (hcomma : ∀ t ∈ ts.head?, t.kind ≠ .comma) :
    ts'.head?.map Token.kind = ts.head?.map Token.kind := by
  cases ts with
  | nil => rw [h.nil]
  | cons t ts =>
    obtain ⟨t', rest', rfl, ht', -⟩ := h.cons (hcomma t rfl)
    exact congrArg some (congrArg Prod.fst ht')

end Looser

/-! ### Reading looser tokens -/

/-- No number stands in front of an address without an offset. -/
def StatementText.Unambiguous (text : StatementText) : Prop :=
  ∀ front token base back, text.operands ≠ front ++ .number token :: .address none base :: back

section Reading

variable {state : Option Statement} {starts comma : Bool} {s : Statement} {o : OperandText}
  {ts ts' taken taken' rest rest' : List Token} {lines : List Line}

theorem spelled_nil (h : ts'.map Token.spelling = [].map Token.spelling) : ts' = [] :=
  List.map_eq_nil_iff.mp h

theorem spelled_cons {t : Token} (h : ts'.map Token.spelling = (t :: ts).map Token.spelling) :
    ∃ t' rest', ts' = t' :: rest' ∧ t'.kind = t.kind ∧ t'.text = t.text ∧
      rest'.map Token.spelling = ts.map Token.spelling := by
  obtain ⟨t', rest', rfl, ht, hrest⟩ := List.map_eq_cons_iff.mp h
  obtain ⟨hkind, htext⟩ := Prod.mk.inj ht
  exact ⟨t', rest', rfl, hkind, htext, hrest⟩

/-- An operand is known by what its tokens say. -/
theorem Forms.spelled (h : Forms o taken)
    (htaken : taken'.map Token.spelling = taken.map Token.spelling) : Forms o taken' := by
  cases h with
  | register kind =>
    obtain ⟨t', _, rfl, hkind, htext, hnil⟩ := spelled_cons htaken
    obtain rfl := spelled_nil hnil
    exact htext ▸ .register (hkind.trans kind)
  | number kind =>
    obtain ⟨t', _, rfl, hkind, htext, hnil⟩ := spelled_cons htaken
    obtain rfl := spelled_nil hnil
    exact htext ▸ .number (hkind.trans kind)
  | name kind =>
    obtain ⟨t', _, rfl, hkind, htext, hnil⟩ := spelled_cons htaken
    obtain rfl := spelled_nil hnil
    exact htext ▸ .name (hkind.trans kind)
  | bare opens kind closes =>
    obtain ⟨opening, _, rfl, hopens, -, htail⟩ := spelled_cons htaken
    obtain ⟨base, _, rfl, hkind, htext, htail⟩ := spelled_cons htail
    obtain ⟨closing, _, rfl, hcloses, -, hnil⟩ := spelled_cons htail
    obtain rfl := spelled_nil hnil
    exact htext ▸ .bare (hopens.trans opens) (hkind.trans kind) (hcloses.trans closes)
  | address number opens kind closes =>
    obtain ⟨offset, _, rfl, hnumber, hoffset, htail⟩ := spelled_cons htaken
    obtain ⟨opening, _, rfl, hopens, -, htail⟩ := spelled_cons htail
    obtain ⟨base, _, rfl, hkind, htext, htail⟩ := spelled_cons htail
    obtain ⟨closing, _, rfl, hcloses, -, hnil⟩ := spelled_cons htail
    obtain rfl := spelled_nil hnil
    rw [← hoffset, ← htext]
    exact .address (hnumber.trans number) (hopens.trans opens) (hkind.trans kind)
      (hcloses.trans closes)

theorem Parses.anyComma (h : Parses none comma ts lines) (comma' : Bool) :
    Parses none comma' ts lines := by
  cases h with
  | finished => exact .finished
  | emptyLine kind others => exact .emptyLine kind others
  | label kind marks others => exact .label kind marks others
  | mnemonic kind unmarked others => exact .mnemonic kind unmarked others

theorem Parses.emptyLines (h : Parses none false ts lines) {ends : List Token}
    (hends : ∀ t ∈ ends, t.kind = .lineEnd) : Parses none comma (ends ++ ts) lines := by
  induction ends generalizing comma with
  | nil => exact h.anyComma comma
  | cons t ends ih =>
    obtain ⟨ht, hothers⟩ := List.forall_mem_cons.mp hends
    exact .emptyLine ht (ih hothers)

theorem Parses.head_ne_comma (h : Parses (some s) false ts lines) :
    ∀ t ∈ ts.head?, t.kind ≠ .comma := by
  cases h with
  | last => nofun
  | lineEnd kind =>
    rintro _ ⟨⟩
    simp [kind]
  | operand forms =>
    rintro _ ⟨⟩
    exact (forms.solid _ List.mem_cons_self).1

/-- A parenthesis that starts an operand starts an address without an offset. -/
theorem Parses.head_leftParen (h : Parses (some s) false ts lines)
    (hhead : ts.head?.map Token.kind = some .leftParen) :
    ∃ p base operands others, lines =
      .statement { s with operands := s.operands ++ ⟨p, .address none base⟩ :: operands } :: others := by
  cases h with
  | last => cases hhead
  | lineEnd kind => simp [kind] at hhead
  | @operand _ _ _ t _ _ _ forms ends others =>
    obtain ⟨operands, further, rfl⟩ := others.pending rfl
    cases forms with
    | @bare _ base => exact ⟨t.position, base.text, operands, further, by simp⟩
    | register kind | number kind | name kind | address kind => simp [kind] at hhead

theorem Parses.of_comma {t : Token} (h : Parses (some s) comma (t :: ts) lines)
    (hcomma : t.kind = .comma) : Parses (some s) false ts lines := by
  cases h with
  | comma kind others => exact others
  | lineEnd kind => simp [kind] at hcomma
  | operand forms => exact absurd hcomma (forms.solid _ List.mem_cons_self).1

/-- An operand ends where it ended, if no number comes to stand in front of an address. -/
theorem Parses.ends (h : Parses (some s) true rest lines) (hlooser : Looser false rest rest')
    (hends : Ends o rest) (hlast : s.content.operands.getLast? = some o)
    (hplain : ∀ t ∈ statements lines, t.content.Unambiguous) : Ends o rest' := by
  cases o with
  | register | address | name => trivial
  | number token =>
    intro t' ht' hopens
    have hhead' : rest'.head?.map Token.kind = some .leftParen := by
      rw [Option.mem_def.mp ht', Option.map_some, hopens]
    -- Only the loss of a comma brings a parenthesis behind the number.
    cases rest with
    | nil =>
      rw [hlooser.nil] at hhead'
      cases hhead'
    | cons t rest =>
      by_cases hcomma : t.kind = .comma
      · rcases hlooser.comma hcomma with hlooser | ⟨u, _, rfl, hu, -⟩
        · have hothers := h.of_comma hcomma
          rw [hlooser.head_kind hothers.head_ne_comma] at hhead'
          obtain ⟨p, base, operands, others, rfl⟩ := hothers.head_leftParen hhead'
          obtain ⟨front, hfront⟩ := List.getLast?_eq_some_iff.mp hlast
          refine hplain _ List.mem_cons_self front token base (operands.map (·.text)) ?_
          have hoperands : s.operands.map (·.text) = front ++ [.number token] := hfront
          simp [Statement.content, hoperands]
        · rw [List.head?_cons, Option.map_some, hu] at hhead'
          cases hhead'
      · rw [hlooser.head_kind (by simpa using hcomma)] at hhead'
        exact hends t rfl (Option.some.inj hhead')

theorem content_snoc {s s' : Statement} (h : s'.content = s.content) (p p' : Position)
    (o : OperandText) :
    ({ s' with operands := s'.operands ++ [⟨p', o⟩] } : Statement).content =
      ({ s with operands := s.operands ++ [⟨p, o⟩] } : Statement).content := by
  obtain ⟨hmnemonic, hoperands⟩ := StatementText.mk.inj h
  simp [Statement.content, hmnemonic, hoperands]

/-- **Looser tokens are read as lines that say the same.** A line starts where no statement is taking
operands. -/
theorem Parses.loosened (h : Parses state comma ts lines) (hlooser : Looser state.isNone ts ts')
    {state' : Option Statement} (hstate : Option.Rel (fun s s' => s'.content = s.content) state state')
    {comma' : Bool} (hcomma : comma = true → comma' = true)
    (hplain : ∀ t ∈ statements lines, t.content.Unambiguous) :
    ∃ lines', Parses state' comma' ts' lines' ∧
      lines'.map Line.content = lines.map Line.content := by
  induction h generalizing ts' state' comma' with
  | finished =>
    cases hstate
    obtain ⟨ends, rest', rfl, hends, hrest⟩ := hlooser.skip nofun
    obtain rfl := hrest.nil
    exact ⟨[], Parses.finished.emptyLines hends, rfl⟩
  | last =>
    cases hstate with | some hs
    obtain rfl := hlooser.nil
    exact ⟨[_], .last, congrArg (fun text => [LineText.statement text]) hs⟩
  | emptyLine kind others ih => exact ih (hlooser.lineEnd kind) hstate nofun hplain
  | @label _ t colon _ _ kind marks others ih =>
    cases hstate
    obtain ⟨ends, _, rfl, hends, hlooser⟩ := hlooser.skip (by simp [kind])
    obtain ⟨_, rest', rfl, htaken, hrest⟩ :=
      Looser.append [t, colon] hlooser (by simp [kind, marks])
    obtain ⟨t', _, rfl, hkind, htext, htaken⟩ := spelled_cons htaken
    obtain ⟨colon', _, rfl, hmarks, -, hnil⟩ := spelled_cons htaken
    obtain rfl := spelled_nil hnil
    obtain ⟨lines', hread, hlines⟩ := ih hrest.atStart .none (fun h => h) hplain
    refine ⟨_, (Parses.label (hkind.trans kind) (hmarks.trans marks) hread).emptyLines hends, ?_⟩
    rw [List.map_cons, List.map_cons, hlines, Line.content, Line.content, htext]
  | @mnemonic _ t _ _ kind unmarked others ih =>
    cases hstate
    obtain ⟨ends, _, rfl, hends, hlooser⟩ := hlooser.skip (by simp [kind])
    obtain ⟨_, rest', rfl, htaken, hrest⟩ :=
      Looser.append [t] hlooser (by simp [kind])
    obtain ⟨t', _, rfl, hkind, htext, hnil⟩ := spelled_cons htaken
    obtain rfl := spelled_nil hnil
    have hunmarked : ∀ u ∈ rest'.head?, u.kind ≠ .colon := by
      have hhead := hrest.head_kind others.head_ne_comma
      intro u hu hcolon
      rw [Option.mem_def.mp hu, Option.map_some] at hhead
      obtain ⟨v, hv, hkinds⟩ := Option.map_eq_some_iff.mp hhead.symm
      exact unmarked v hv (hkinds.trans hcolon)
    have hstatement : (⟨t'.position, t'.text, []⟩ : Statement).content =
        (⟨t.position, t.text, []⟩ : Statement).content := by rw [htext]; rfl
    obtain ⟨lines', hread, hlines⟩ := ih hrest (.some hstatement) (fun h => h) hplain
    exact ⟨_, (Parses.mnemonic (hkind.trans kind) hunmarked hread).emptyLines hends, hlines⟩
  | lineEnd kind others ih =>
    cases hstate with | some hs
    obtain ⟨t', rest', rfl, ht', hrest⟩ := hlooser.cons (by simp [kind])
    have hkind := (congrArg Prod.fst ht').trans kind
    obtain ⟨lines', hread, hlines⟩ :=
      ih hrest.atStart .none (fun h => h) (List.forall_mem_cons.mp hplain).2
    refine ⟨_, .lineEnd hkind hread, ?_⟩
    rw [List.map_cons, List.map_cons, hlines, Line.content, Line.content, hs]
  | comma kind others ih =>
    cases hstate with | some hs
    rcases hlooser.comma kind with hlooser | ⟨t', rest', rfl, hkind, hrest⟩
    · exact ih hlooser (.some hs) nofun hplain
    · obtain rfl := hcomma rfl
      obtain ⟨lines', hread, hlines⟩ := ih hrest (.some hs) (fun h => h) hplain
      exact ⟨lines', .comma hkind hread, hlines⟩
  | @operand _ _ o t _ _ _ forms ends others ih =>
    cases hstate with | some hs
    obtain ⟨_, rest', rfl, htaken, hrest⟩ := Looser.append _ hlooser forms.solid
    have forms' := forms.spelled htaken
    have ends' := others.ends hrest ends (by simp [Statement.content]) hplain
    obtain ⟨t', tail', rfl, -⟩ := spelled_cons htaken
    obtain ⟨lines', hread, hlines⟩ :=
      ih hrest (.some (content_snoc hs t.position t'.position o)) (fun h => h) hplain
    exact ⟨lines', .operand forms' ends' hread, hlines⟩

end Reading

/-! ### Programs -/

section Contents

variable {known : Labels} {op : Opcode} {s s' : Statement} {lines lines' : List Line}
  {code : List Instruction}

theorem resolveOperands_text {kinds : List OperandKind} {operands operands' : List Operand}
    (h : operands'.map (·.text) = operands.map (·.text)) (position : Nat) :
    resolveOperands known op position (kinds.zip operands') =
      resolveOperands known op position (kinds.zip operands) := by
  induction operands generalizing operands' kinds position with
  | nil => rw [List.map_eq_nil_iff.mp h]
  | cons o operands ih =>
    obtain ⟨o', others', rfl, ho, hothers⟩ := List.map_eq_cons_iff.mp h
    cases kinds with
    | nil => rfl
    | cons kind kinds =>
      rw [List.zip_cons_cons, List.zip_cons_cons, resolveOperands, resolveOperands, ho, ih hothers]

theorem resolveStatement_content (h : s'.content = s.content) :
    resolveStatement known s' = resolveStatement known s := by
  obtain ⟨hmnemonic, hoperands⟩ := StatementText.mk.inj h
  have hlength : s'.operands.length = s.operands.length := by
    simpa using congrArg List.length hoperands
  unfold resolveStatement
  rw [hmnemonic, hlength]
  dsimp only
  rw [resolveOperands_text hoperands]

theorem content_cons {line : Line} (h : lines'.map Line.content = (line :: lines).map Line.content) :
    ∃ line' others', lines' = line' :: others' ∧ line'.content = line.content ∧
      others'.map Line.content = lines.map Line.content :=
  List.map_eq_cons_iff.mp h

theorem content_label {line : Line} {p : Position} {name : String}
    (h : line.content = (Line.label p name).content) : ∃ q, line = .label q name := by
  cases line with
  | label q name' =>
    obtain rfl := LineText.label.inj h
    exact ⟨q, rfl⟩
  | statement => cases h

theorem content_statement {line : Line} (h : line.content = (Line.statement s).content) :
    ∃ s', line = .statement s' ∧ s'.content = s.content := by
  cases line with
  | label => cases h
  | statement s' => exact ⟨s', rfl, LineText.statement.inj h⟩

theorem labelPlaces_content (h : lines'.map Line.content = lines.map Line.content) (next : Nat) :
    labelPlaces next lines' = labelPlaces next lines := by
  induction lines generalizing lines' next with
  | nil => rw [List.map_eq_nil_iff.mp h]
  | cons line lines ih =>
    obtain ⟨line', others', rfl, hline, hothers⟩ := content_cons h
    cases line with
    | label =>
      obtain ⟨q, rfl⟩ := content_label hline
      rw [labelPlaces, labelPlaces, ih hothers]
    | statement =>
      obtain ⟨s', rfl, -⟩ := content_statement hline
      rw [labelPlaces, labelPlaces, ih hothers]

theorem resolveLines_content (h : lines'.map Line.content = lines.map Line.content)
    (hresolve : resolveLines known lines = .ok code) : resolveLines known lines' = .ok code := by
  induction lines generalizing lines' code with
  | nil => rwa [List.map_eq_nil_iff.mp h]
  | cons line lines ih =>
    obtain ⟨line', others', rfl, hline, hothers⟩ := content_cons h
    cases line with
    | label =>
      obtain ⟨q, rfl⟩ := content_label hline
      rw [resolveLines] at hresolve ⊢
      exact ih hothers hresolve
    | statement s =>
      obtain ⟨s', rfl, hs⟩ := content_statement hline
      rw [resolveLines] at hresolve ⊢
      rw [resolveStatement_content hs]
      split at hresolve
      · cases hresolve
      · obtain ⟨others, hrest, hcode⟩ := bind_eq_ok.mp hresolve
        rw [ih hothers hrest]
        exact hcode

/-- **What a program is depends on what its lines say**, not on where they stand. -/
theorem resolve_content (h : lines'.map Line.content = lines.map Line.content)
    (hresolve : resolve lines = .ok code) : resolve lines' = .ok code := by
  obtain ⟨known, hlabels, hcode⟩ := bind_eq_ok.mp hresolve
  obtain ⟨distinct, hknown⟩ := labels_eq_ok.mp hlabels
  have hplaces := labelPlaces_content h 0
  rw [← map_fst_labelPlaces 0, ← hplaces, map_fst_labelPlaces] at distinct
  rw [resolve, labels_eq_ok.mpr ⟨distinct, hplaces.trans hknown⟩]
  exact resolveLines_content h hcode

theorem shape_before_address {k : Nat} (h : (shape op)[k + 1]? = some .address) :
    (shape op)[k]? = some .register := by
  -- There are at most three operands.
  cases op <;> rcases k with _ | _ | _ | k <;> simp_all [shape]

theorem exists_kind {kinds : List OperandKind} {operands : List Operand} {o : OperandText} {k : Nat}
    (count : operands.length = kinds.length)
    (fits : ∀ x ∈ kinds.zip operands, OperandFits lines x.1 x.2.text)
    (ho : (operands.map (·.text))[k]? = some o) :
    ∃ kind, kinds[k]? = some kind ∧ OperandFits lines kind o := by
  rw [List.getElem?_map] at ho
  obtain ⟨operand, hoperand, rfl⟩ := Option.map_eq_some_iff.mp ho
  obtain ⟨hk, -⟩ := List.getElem?_eq_some_iff.mp hoperand
  have hkind : kinds[k]? = some kinds[k] := List.getElem?_eq_getElem (count ▸ hk)
  have hpair : (kinds.zip operands)[k]? = some (kinds[k], operand) :=
    List.getElem?_zip_eq_some.mpr ⟨hkind, hoperand⟩
  exact ⟨_, hkind, fits _ (List.mem_of_getElem? hpair)⟩

/-- No operation takes a number in front of an address. -/
theorem StatementFits.unambiguous (h : StatementFits lines s) : s.content.Unambiguous := by
  obtain ⟨op, -, count, fits⟩ := h
  intro front token base back hoperands
  have hoperands : s.operands.map (·.text) = _ := hoperands
  obtain ⟨kind, hkind, hnumber⟩ := exists_kind (k := front.length) (o := .number token) count fits
    (by rw [hoperands]; simp)
  obtain ⟨kind', hkind', haddress⟩ := exists_kind (k := front.length + 1)
    (o := .address none base) count fits (by rw [hoperands]; simp)
  cases kind' with
  | register | immediate | target => exact haddress
  | address =>
    rw [shape_before_address hkind'] at hkind
    obtain rfl := Option.some.inj hkind
    exact hnumber

end Contents

/-- The text is read as a listing that is this program, and not of too many lines. -/
def AssemblesTo (cs : List Char) (code : List Instruction) : Prop :=
  ∃ tokens lines, scan 0 {} cs = .ok tokens ∧
    Parses none false (tokens.filter Token.isSignificant) lines ∧ resolve lines = .ok code ∧
    lines.length < repetitionLimit

section Programs

variable {cs cs' : List Char} {code : List Instruction} {source : String}

theorem assemblesTo_of_assemble (h : assemble source = .ok code) :
    AssemblesTo (terminated source) code := by
  obtain ⟨lines, hparse, hresolve⟩ := assemble_eq_ok.mp h
  obtain ⟨hread, hnone⟩ := parse_eq_ok.mp hparse
  have hlines : lines.length < repetitionLimit := Nat.not_le.mp (hnone .lines)
  unfold readListing at hread
  split at hread
  · cases hread
  · next tokens hscan =>
    exact ⟨tokens, lines, hscan, readLines_eq_ok.mp hread, hresolve, hlines⟩

/-- Such a text is assembled, unless too many of its line ends follow one another. -/
theorem AssemblesTo.assemble (h : AssemblesTo (terminated source) code) :
    (¬ Crowded (tokenKinds source) → assemble source = .ok code) ∧
      (Crowded (tokenKinds source) →
        ∃ p, assemble source = .error (.unread (.excessive .lineEnds p))) := by
  obtain ⟨tokens, lines, hscan, hread, hresolve, hlines⟩ := h
  have hlisting : readListing source = .ok lines := by
    rw [readListing, Assembly.tokens, hscan]
    exact readLines_eq_ok.mpr hread
  rcases assemble_settled hlisting hresolve with
    ⟨hspaced, -, haccepted⟩ | ⟨hcrowded, hrefused⟩ | ⟨hmany, -⟩
  · exact ⟨fun _ => haccepted, fun hcrowded => absurd hcrowded hspaced⟩
  · exact ⟨fun hspaced => absurd hcrowded hspaced, fun _ => hrefused⟩
  · exact absurd hlines (Nat.not_lt.mpr hmany)

/-- **Looser tokens make the same program.** -/
theorem AssemblesTo.loosened (h : AssemblesTo cs code) (hloosens : Loosens true cs cs') :
    AssemblesTo cs' code := by
  obtain ⟨tokens, lines, hscan, hread, hresolve, hlines⟩ := h
  have hfits := ((resolve_verdict lines).ok.mp ⟨code, hresolve⟩).2
  obtain ⟨spellings', hspells', hsparser⟩ :=
    hloosens _ (spells_of_tiles (tiles_of_scan hscan))
  obtain ⟨tokens', hscan', rfl⟩ := hspells' {}
  obtain ⟨lines', hread', hcontent⟩ :
      ∃ lines', Parses none false (tokens'.filter Token.isSignificant) lines' ∧
        lines'.map Line.content = lines.map Line.content :=
    hread.loosened hsparser .none (fun h => h) fun s hs => (hfits s hs).unambiguous
  have hlength : lines'.length = lines.length := by
    simpa using congrArg List.length hcontent
  exact ⟨tokens', lines', hscan', hread', resolve_content hcontent hresolve, hlength ▸ hlines⟩

theorem AssemblesTo.edited {cs cs' : List Char} (h : AssemblesTo (cs ++ ['\n']) code)
    (edits : Relation.ReflTransGen LayoutEdit cs cs') : AssemblesTo (cs' ++ ['\n']) code := by
  induction edits with
  | refl => exact h
  | tail _ edit ih => exact ih.loosened edit.loosens

/-- The layout of an accepted text can be changed in any places and any number of times. -/
theorem assemblesTo_of_edits {source' : String} (accepted : assemble source = .ok code)
    (edits : Relation.ReflTransGen LayoutEdit source.toList source'.toList) :
    AssemblesTo (terminated source') code :=
  have hsource := (assemblesTo_of_assemble accepted).loosened (loosens_terminated source)
  (hsource.edited edits).loosened (terminated_loosens source')

/-- **Layout does not matter**, as long as no crowd of line ends is put in: a program stays the same
when comments are taken out, blanks are changed, empty lines and lines of comments are put in and
commas are made blanks, in any places and any number of times. -/
theorem layout_insignificant {source source' : String} (accepted : assemble source = .ok code)
    (edits : Relation.ReflTransGen LayoutEdit source.toList source'.toList) :
    (¬ Crowded (tokenKinds source') → assemble source' = .ok code) ∧
      (Crowded (tokenKinds source') →
        ∃ p, assemble source' = .error (.unread (.excessive .lineEnds p))) :=
  (assemblesTo_of_edits accepted edits).assemble

end Programs

/-- A loop with a comment, a tab and an address without an offset behind a comma. -/
def spacedSource : String :=
  "loop: sw $t1, ($sp) # push\n\tbeq $t1, $a0, loop"

/-- The loop without the comment, the tab and that comma, but with a line for a comment. -/
def respacedSource : String :=
  "loop: sw $t1  ($sp) \n; again\n  beq $t1, $a0, loop"

theorem spacedSource_edits :
    Relation.ReflTransGen LayoutEdit spacedSource.toList respacedSource.toList := by
  obtain ⟨store, base, branch, hspaced, hrespaced⟩ : ∃ store base branch,
      spacedSource.toList =
        store ++ ',' :: (base ++ '#' :: (" push".toList ++ '\n' :: '\t' :: branch)) ∧
      respacedSource.toList =
        store ++ ' ' :: (base ++ '\n' :: ("; again".toList ++ '\n' :: ' ' :: ' ' :: branch)) :=
    ⟨"loop: sw $t1".toList, " ($sp) ".toList, "beq $t1, $a0, loop".toList, by decide +kernel,
      by decide +kernel⟩
  have huncommented : LayoutEdit spacedSource.toList
      (store ++ ',' :: (base ++ '\n' :: '\t' :: branch)) := by
    have h : LayoutEdit ((store ++ ',' :: base) ++ '#' :: (" push".toList ++ '\n' :: '\t' :: branch))
        ((store ++ ',' :: base) ++ '\n' :: '\t' :: branch) :=
      .comment (.inr rfl) (by decide +kernel) (by simp)
    rw [hspaced]
    simpa using h
  have hcomma : LayoutEdit (store ++ ',' :: (base ++ '\n' :: '\t' :: branch))
      (store ++ ' ' :: (base ++ '\n' :: '\t' :: branch)) := .comma
  have hblanks : LayoutEdit (store ++ ' ' :: (base ++ '\n' :: '\t' :: branch))
      (store ++ ' ' :: (base ++ '\n' :: ' ' :: ' ' :: branch)) := by
    have h : LayoutEdit ((store ++ ' ' :: (base ++ ['\n'])) ++ (['\t'] ++ branch))
        ((store ++ ' ' :: (base ++ ['\n'])) ++ ([' ', ' '] ++ branch)) :=
      .blanks (List.cons_ne_nil _ _) (List.forall_mem_singleton.mpr rfl) (List.cons_ne_nil _ _)
        (List.forall_mem_cons.mpr ⟨rfl, List.forall_mem_singleton.mpr rfl⟩)
    simpa using h
  have hline : LayoutEdit (store ++ ' ' :: (base ++ '\n' :: ' ' :: ' ' :: branch))
      respacedSource.toList := by
    have hhead : ("; again".toList.dropWhile isBlank).head? = some ';' := by decide +kernel
    have hempty : IsEmptyLine "; again".toList := ⟨by decide +kernel, by rw [hhead]; simp⟩
    have h : LayoutEdit ((store ++ ' ' :: base ++ ['\n']) ++ ' ' :: ' ' :: branch)
        ((store ++ ' ' :: base ++ ['\n']) ++ ("; again".toList ++ '\n' :: ' ' :: ' ' :: branch)) :=
      .line (by rw [List.getLast?_concat]; simp) hempty
    rw [hrespaced]
    simpa using h
  exact (((Relation.ReflTransGen.single huncommented).tail hcomma).tail hblanks).tail hline

theorem layout_insignificant_respaced :
    ∃ code, assemble spacedSource = .ok code ∧
      Relation.ReflTransGen LayoutEdit spacedSource.toList respacedSource.toList ∧
      ¬ Crowded (tokenKinds respacedSource) ∧ assemble respacedSource = .ok code := by
  have accepted : assemble spacedSource = .ok
      [.memory .sw "$t1" 0 "$sp", .ofArgs .beq ["$t1", "$a0", "0"] 0] :=
    toOption_eq_some.mp (by decide +kernel)
  have hspaced : ¬ Crowded (tokenKinds respacedSource) :=
    fun h => absurd h.le_length (by decide +kernel)
  exact ⟨_, accepted, spacedSource_edits, hspaced,
    (layout_insignificant accepted spacedSource_edits).1 hspaced⟩

def haltLine : StatementText where
  mnemonic := "halt"
  operands := []

/-- Two instructions with empty lines between them. -/
def distantSource (empty : Nat) : String :=
  String.ofList (haltLine.source ++ (List.replicate empty '\n' ++ haltLine.source))

theorem distantSource_edits (empty : Nat) :
    Relation.ReflTransGen LayoutEdit (distantSource 0).toList (distantSource empty).toList := by
  have hfront : ∀ c ∈ haltLine.source.getLast?, c = '\n' := by simp [StatementText.source]
  have hempty : IsEmptyLine [] := ⟨List.not_mem_nil, by simp⟩
  simp only [distantSource, String.toList_ofList]
  generalize haltLine.source = front at hfront
  induction empty with
  | zero => exact .refl
  | succ empty ih => exact ih.tail (.line hfront hempty)

/-- Empty lines are lexed as their line ends. -/
theorem Spells.emptyLines {rest : List Char} {spellings : List (TokenKind × String)}
    (h : Spells rest spellings) (empty : Nat) :
    Spells (List.replicate empty '\n' ++ rest)
      (List.replicate empty (.lineEnd, "\n") ++ spellings) := by
  induction empty with
  | zero => exact h
  | succ empty ih =>
    have hline : lexeme? (['\n'] ++ (List.replicate empty '\n' ++ rest)) =
      some (.lineEnd, ['\n']) := rfl
    exact ih.cons hline (by decide) (by decide) (by decide)

theorem tokenKinds_distantSource (empty : Nat) :
    tokenKinds (distantSource empty) =
      .name :: (List.replicate (empty + 1) .lineEnd ++ [.name, .lineEnd]) := by
  have hwell : ∀ t ∈ [haltLine], t.WellFormed :=
    List.forall_mem_singleton.mpr
      ⟨isToken_mnemonic (show Opcode.halt.isValid = true from rfl), List.forall_mem_nil _,
        List.forall_mem_nil _⟩
  have hrest := (Spells.statements hwell).emptyLines (empty + 1)
  have hspells := hrest.string (.cons (by decide)) (hwell _ List.mem_cons_self).mnemonic (by decide)
    (by decide)
  have hterminated : terminated (distantSource empty) =
      haltLine.mnemonic.toList ++
        (List.replicate (empty + 1) '\n' ++ [haltLine].flatMap StatementText.source) := by
    have hlast : (distantSource empty).toList.getLast? = some '\n' := by
      simp [distantSource, StatementText.source, List.getLast?_append, List.getLast?_cons]
    rw [terminated, if_pos hlast]
    simp [distantSource, StatementText.source, haltLine, List.replicate_succ]
  rw [tokenKinds_of_spells (hterminated ▸ hspells)]
  simp [haltLine, StatementText.spellings]

/-- Empty lines alone can make a text that is refused. -/
theorem distantSource_refused :
    (∃ code, assemble (distantSource 0) = .ok code) ∧
      Relation.ReflTransGen LayoutEdit (distantSource 0).toList
        (distantSource (repetitionLimit - 1)).toList ∧
      ∃ p, assemble (distantSource (repetitionLimit - 1)) =
        .error (.unread (.excessive .lineEnds p)) := by
  have accepted : assemble (distantSource 0) = .ok [.ofArgs .halt [] 0, .ofArgs .halt [] 0] :=
    toOption_eq_some.mp (by decide +kernel)
  have edits := distantSource_edits (repetitionLimit - 1)
  refine ⟨⟨_, accepted⟩, edits, (assemblesTo_of_edits accepted edits).assemble.2 ?_⟩
  rw [tokenKinds_distantSource, Nat.sub_add_cancel repetitionLimit_pos]
  exact ⟨[.name], [.name, .lineEnd], rfl⟩

end RegisterMachine.Assembly
