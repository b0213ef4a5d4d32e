import RegisterMachine.Proofs.Assembly.Acceptance
import RegisterMachine.Proofs.Assembly.Grammar

/-!
# Places in a text

The tokens of a text are the text, piece by piece, and each of them knows the line, the column and
the byte at which it starts. A listing takes the place of every line from the first token of that
line, so the error of a listing names the line of the text in which the offending label or statement
begins. A text that cannot be cut into tokens is refused where the cutting ends.
-/

set_option autoImplicit false

namespace RegisterMachine.Assembly

open Checks
open Utf8 (encodeChars)

/-! ### Counting -/

/-- The place behind a text, by its line ends, the characters behind the last one and its bytes. -/
def Position.behind (cs : List Char) : Position where
  line := 1 + cs.count '\n'
  column := 1 + (cs.reverse.takeWhile (· ≠ '\n')).length
  offset := (encodeChars cs).length

theorem Position.behind_snoc (cs : List Char) (c : Char) :
    (behind cs).advance c = behind (cs ++ [c]) := by
  have hoffset : (encodeChars (cs ++ [c])).length = (encodeChars cs).length + c.utf8Size := by
    rw [Utf8.encodeChars_append, List.length_append, encodeChars, encodeChars,
      List.flatMap_singleton, String.length_utf8EncodeChar]
  unfold advance behind
  split
  · next hc =>
    subst hc
    simp [hoffset, Nat.add_assoc]
    rfl
  · next hc => simp [hoffset, hc, Nat.add_assoc]

theorem Position.foldl_advance_behind (cs ds : List Char) :
    ds.foldl advance (behind cs) = behind (cs ++ ds) := by
  induction ds generalizing cs with
  | nil => rw [List.append_nil, List.foldl_nil]
  | cons d ds ih => rw [List.foldl_cons, behind_snoc, ih, List.append_assoc, List.singleton_append]

/-- The characters of tokens in a row. -/
def textOf (ts : List Token) : List Char :=
  ts.flatMap fun t => t.text.toList

theorem textOf_cons (t : Token) (ts : List Token) : textOf (t :: ts) = t.text.toList ++ textOf ts :=
  List.flatMap_cons

/-! ### Cutting a text -/

/-- The tokens are cut off the front of a text one by one, and the rest is left. Every token is found
in front of all that follows it. -/
inductive Cuts : List Char → List Token → List Char → Prop
  | done {rest : List Char} : Cuts rest [] rest
  | token {p : Position} {kind : TokenKind} {text behind rest : List Char} {ts : List Token}
      (first : Lexes (text ++ behind) kind text) (others : Cuts behind ts rest) :
      Cuts (text ++ behind) (⟨kind, String.ofList text, p⟩ :: ts) rest

/-- No rule finds a token at the start of this text, though there is text. -/
structure Stuck (rest : List Char) : Prop where
  nonempty : rest ≠ []
  unmatched : ∀ kind text, ¬ Lexes rest kind text

section Cutting

variable {p : Position} {cs rest : List Char} {ts : List Token}

theorem scan_stuck (h : Stuck rest) : scan 0 p rest = .error ⟨p, rest⟩ := by
  cases rest with
  | nil => exact absurd rfl h.nonempty
  | cons c rest =>
    rw [scan]
    split
    · rfl
    · next kind text hlexeme => exact absurd (lexes_of_lexeme? hlexeme) (h.unmatched kind text)

/-- **A text on which cutting ends early is refused there.** -/
theorem scan_of_cuts (h : Cuts cs ts rest) (stuck : Stuck rest) :
    scan 0 p cs = .error ⟨(textOf ts).foldl Position.advance p, rest⟩ := by
  induction h generalizing p with
  | done => exact scan_stuck stuck
  | token first others ih =>
    rw [scan_token first, ih stuck, textOf_cons, String.toList_ofList, List.foldl_append]
    rfl

theorem cuts_of_scan {e : LexicalError} (h : scan 0 p cs = .error e) :
    ∃ ts, Cuts cs ts e.rest ∧ Stuck e.rest := by
  induction hn : cs.length using Nat.strongRecOn generalizing p cs with
  | ind n ih =>
    cases cs with
    | nil => cases h
    | cons c cs =>
      cases hlexeme : lexeme? (c :: cs) with
      | none =>
        rw [scan, hlexeme] at h
        obtain rfl := Except.error.inj h
        refine ⟨[], .done, List.cons_ne_nil c cs, fun kind text hlexes => ?_⟩
        rw [lexeme?_of_lexes hlexes] at hlexeme
        cases hlexeme
      | some found =>
        obtain ⟨kind, text⟩ := found
        have first := lexes_of_lexeme? hlexeme
        obtain ⟨d, tail, rest, rfl, hsplit⟩ := first.split
        rw [← List.cons_append] at hsplit
        rw [hsplit] at first h hn ⊢
        rw [scan_token first] at h
        cases hothers : scan 0 ((d :: tail).foldl Position.advance p) rest with
        | ok ts =>
          rw [hothers] at h
          cases h
        | error e' =>
          rw [hothers] at h
          obtain rfl := Except.error.inj h
          obtain ⟨ts, hcuts, stuck⟩ := ih rest.length (by simp at hn; omega) hothers rfl
          exact ⟨⟨kind, String.ofList (d :: tail), p⟩ :: ts, .token first hcuts, stuck⟩

end Cutting

section Tiles

variable {cs : List Char} {ts : List Token}

theorem Tiles.textOf_eq {p : Position} (h : Tiles p cs ts) : textOf ts = cs := by
  induction h with
  | nil => rfl
  | cons first others ih => rw [textOf_cons, String.toList_ofList, ih]

theorem Tiles.cuts {p : Position} (h : Tiles p cs ts) : Cuts cs ts [] := by
  induction h with
  | nil => exact .done
  | cons first others ih => exact .token first ih

theorem Tiles.text_ne_empty {p : Position} (h : Tiles p cs ts) : ∀ t ∈ ts, t.text ≠ "" := by
  induction h with
  | nil => nofun
  | cons first others ih =>
    refine List.forall_mem_cons.mpr ⟨fun hempty => first.ne_nil ?_, ih⟩
    simpa using congrArg String.toList hempty

/-- **A token starts behind the text in front of it.** -/
theorem Tiles.position_eq {front : List Char} (h : Tiles (.behind front) cs ts)
    {before after : List Token} {t : Token} (hsplit : ts = before ++ t :: after) :
    t.position = .behind (front ++ textOf before) := by
  generalize hp : Position.behind front = p at h
  induction h generalizing front before with
  | nil => simp at hsplit
  | cons first others ih =>
    subst hp
    rcases List.cons_eq_append_iff.mp hsplit with ⟨rfl, hhead⟩ | ⟨before, rfl, htail⟩
    · rw [(List.cons.inj hhead).1, textOf, List.flatMap_nil, List.append_nil]
    · rw [textOf_cons, String.toList_ofList, ← List.append_assoc]
      exact ih htail (Position.foldl_advance_behind _ _).symm

end Tiles

/-! ### Lines -/

section Lines

variable {state : Option Statement} {comma : Bool} {ts : List Token} {lines earlier later : List Line}
  {line : Line}

/-- **Every line is read from its first token on**, and has the place of that token. -/
theorem Parses.line_start (h : Parses state comma ts lines) (hlines : lines = earlier ++ line :: later)
    (hstate : state = none ∨ earlier ≠ []) :
    ∃ before t after, ts = before ++ t :: after ∧ t.kind = .name ∧ t.position = line.position ∧
      Parses none false (t :: after) (line :: later) := by
  induction h generalizing earlier with
  | finished => simp at hlines
  | last =>
    rcases List.cons_eq_append_iff.mp hlines with ⟨rfl, -⟩ | ⟨earlier, rfl, htail⟩
    · simp at hstate
    · simp at htail
  | emptyLine kind others ih =>
    obtain ⟨before, t, after, rfl, hline⟩ := ih hlines (.inl rfl)
    exact ⟨_ :: before, t, after, rfl, hline⟩
  | label kind marks others ih =>
    rcases List.cons_eq_append_iff.mp hlines with ⟨rfl, hhead⟩ | ⟨earlier, rfl, htail⟩
    · obtain ⟨rfl, rfl⟩ := List.cons.inj hhead
      exact ⟨[], _, _, rfl, kind, rfl, .label kind marks others⟩
    · obtain ⟨before, t, after, rfl, hline⟩ := ih htail (.inl rfl)
      exact ⟨_ :: _ :: before, t, after, rfl, hline⟩
  | mnemonic kind unmarked others ih =>
    by_cases hfirst : earlier = []
    · subst hfirst hlines
      obtain ⟨operands, _, hline⟩ := others.pending rfl
      exact ⟨[], _, _, rfl, kind, (List.cons.inj hline).1 ▸ rfl, .mnemonic kind unmarked others⟩
    · obtain ⟨before, t, after, rfl, hline⟩ := ih hlines (.inr hfirst)
      exact ⟨_ :: before, t, after, rfl, hline⟩
  | lineEnd kind others ih =>
    rcases List.cons_eq_append_iff.mp hlines with ⟨rfl, -⟩ | ⟨earlier, rfl, htail⟩
    · simp at hstate
    · obtain ⟨before, t, after, rfl, hline⟩ := ih htail (.inl rfl)
      exact ⟨_ :: before, t, after, rfl, hline⟩
  | comma kind others ih =>
    obtain ⟨before, t, after, rfl, hline⟩ := ih hlines (.inr (hstate.resolve_left nofun))
    exact ⟨_ :: before, t, after, rfl, hline⟩
  | @operand s comma o first tail rest lines forms ends others ih =>
    obtain ⟨before, t, after, rfl, hline⟩ := ih hlines (.inr (hstate.resolve_left nofun))
    exact ⟨first :: tail ++ before, t, after, by rw [List.append_assoc], hline⟩

/-- **A line begins with a token of the text** that stands behind the tokens of all earlier lines. -/
theorem exists_first_token {source : String} (h : readListing source = .ok (earlier ++ line :: later)) :
    ∃ before t after, tokens source = .ok (before ++ t :: after) ∧
      contentOf before = earlier.flatMap Line.spellings ∧
      line.spellings.head? = some t.spelling ∧ t.position = line.position := by
  unfold readListing at h
  split at h
  · cases h
  · next all hall =>
    have regular : ∀ t ∈ all.filter Token.isSignificant, t.Regular := fun t ht =>
      (tiles_of_scan hall).regular t (List.mem_filter.mp ht).1
    have hwhole := spellings_readLines h regular
    obtain ⟨front, t, back, hsplit, kind, hposition, hline⟩ :=
      (parses_of_readWithin h).line_start rfl (.inl rfl)
    rw [hsplit] at regular hwhole
    have hback := spellings_readLines (readLines_of_parses hline)
      fun u hu => regular u (List.mem_append_right front hu)
    rw [contentOf_append, List.flatMap_append, ← hback] at hwhole
    have hfront : contentOf front = earlier.flatMap Line.spellings := List.append_cancel_right hwhole
    obtain ⟨before, others, rfl, rfl, hothers⟩ := List.filter_eq_append_iff.mp hsplit
    obtain ⟨skipped, after, rfl, hskipped, -, -⟩ := List.filter_eq_cons_iff.mp hothers
    refine ⟨before ++ skipped, t, after, by rw [List.append_assoc, hall], ?_, ?_, hposition⟩
    · have hnone : contentOf skipped = [] := by
        rw [← contentOf_filter, List.filter_eq_nil_iff.mpr hskipped]
        rfl
      rw [contentOf_append, hnone, List.append_nil, ← contentOf_filter, hfront]
    · have hfirst : contentOf (t :: back) = t.spelling :: contentOf back := by
        rw [contentOf_cons kind rfl, Token.spelling, kind]
      rw [hfirst] at hback
      cases line <;> exact congrArg List.head? hback.symm

end Lines

/-! ### Errors of a listing -/

/-- The problem of a line that stands behind these lines of the listing: it is the first to define a
label again, or the first statement that does not fit. -/
inductive Blames (lines earlier : List Line) : Line → ResolveProblem → Prop
  | label {position : Position} {name : String} (distinct : (labelNames earlier).Nodup)
      (repeated : name ∈ labelNames earlier) :
      Blames lines earlier (.label position name) (.duplicateLabel name)
  | statement {s : Statement} {problem : ResolveProblem}
      (fits : ∀ t ∈ statements earlier, StatementFits lines t)
      (unfit : StatementProblem lines s problem) : Blames lines earlier (.statement s) problem

theorem exists_split_of_statements {lines : List Line} {first others : List Statement}
    {s : Statement} (h : statements lines = first ++ s :: others) :
    ∃ earlier later, lines = earlier ++ .statement s :: later ∧ statements earlier = first := by
  obtain ⟨front, back, rfl, hfront, hback⟩ := List.filterMap_eq_append_iff.mp h
  obtain ⟨labels, line, later, rfl, hlabels, hline, -⟩ := List.filterMap_eq_cons_iff.mp hback
  cases line with
  | label position name => cases hline
  | statement s' =>
    obtain rfl := Option.some.inj hline
    refine ⟨front ++ labels, later, by rw [List.append_assoc], ?_⟩
    have hnone : statements labels = [] := List.filterMap_eq_nil_iff.mpr hlabels
    rw [statements_append, hnone, List.append_nil]
    exact hfront

/-- **The error of a listing has the place of the line with the problem.** -/
theorem exists_blamed {lines : List Line} {e : ResolveError} (h : resolve lines = .error e) :
    ∃ earlier line later, lines = earlier ++ line :: later ∧ Blames lines earlier line e.problem ∧
      e.line = line.position.line := by
  rcases bind_eq_error.mp h with hlabels | ⟨known, hknown, hlines⟩
  · obtain ⟨before, position, name, after, rfl, distinct, repeated, rfl⟩ :=
      ((verdict_labels lines).error e).mp hlabels
    exact ⟨before, .label position name, after, rfl, .label distinct repeated, rfl⟩
  · obtain ⟨-, rfl⟩ := labels_eq_ok.mp hknown
    obtain ⟨first, s, others, hsplit, fits, problem, unfit, rfl⟩ :=
      ((verdict_resolveLines (map_fst_labelPlaces 0 lines) lines).error e).mp hlines
    obtain ⟨earlier, later, hline, rfl⟩ := exists_split_of_statements hsplit
    exact ⟨earlier, .statement s, later, hline, .statement fits unfit, rfl⟩

/-! ### Texts -/

/-- **No character is lost and every place is right.** The tokens of a text are the text in pieces,
none of them empty, and each one knows how many lines, characters and bytes are in front of it. So
the error of a listing names the line of the text in which the offending label or statement begins.
A text that has no tokens is refused at the one place where cutting off token after token gets
stuck. -/
theorem lexing_lossless (source : String) :
    (∀ ts, tokens source = .ok ts →
      textOf ts = terminated source ∧ (∀ t ∈ ts, t.text ≠ "") ∧ Cuts (terminated source) ts [] ∧
      ∀ before t after, ts = before ++ t :: after → t.position = .behind (textOf before)) ∧
    (∀ e, assemble source = .error (.unresolved e) →
      ∃ earlier line later before t after,
        readListing source = .ok (earlier ++ line :: later) ∧
        Blames (earlier ++ line :: later) earlier line e.problem ∧
        tokens source = .ok (before ++ t :: after) ∧
        contentOf before = earlier.flatMap Line.spellings ∧
        line.spellings.head? = some t.spelling ∧
        e.line = 1 + (textOf before).count '\n' ∧
        e.message = "line " ++ Decimal.ofNat (1 + (textOf before).count '\n') ++ ": "
          ++ e.problem.message) ∧
    ∀ e, tokens source = .error e ↔
      ∃ before, Cuts (terminated source) before e.rest ∧ Stuck e.rest ∧
        e.position = .behind (textOf before) := by
  have hplaced : ∀ {ts before t after}, tokens source = .ok ts → ts = before ++ t :: after →
      t.position = .behind (textOf before) := fun hts hsplit =>
    (tiles_of_scan (p := .behind []) hts).position_eq hsplit
  refine ⟨fun ts hts => ?_, fun e he => ?_, fun e => ⟨fun he => ?_, ?_⟩⟩
  · have htiles := tiles_of_scan hts
    exact ⟨htiles.textOf_eq, htiles.text_ne_empty, htiles.cuts, fun _ _ _ => hplaced hts⟩
  · unfold assemble at he
    split at he
    · cases he
    · next lines hparse =>
      have hread := readListing_of_parse hparse
      split at he
      · next e' hresolve =>
        obtain rfl := AssemblyError.unresolved.inj (Except.error.inj he)
        obtain ⟨earlier, line, later, rfl, hblames, hline⟩ := exists_blamed hresolve
        obtain ⟨before, t, after, hts, hbefore, hfirst, hposition⟩ := exists_first_token hread
        have hplace : e'.line = 1 + (textOf before).count '\n' := by
          rw [hline, ← hposition, hplaced hts rfl]
          rfl
        exact ⟨earlier, line, later, before, t, after, hread, hblames, hts, hbefore, hfirst, hplace,
          by rw [← hplace]; rfl⟩
      · cases he
  · obtain ⟨before, hcuts, stuck⟩ := cuts_of_scan he
    have hscan := (scan_of_cuts (p := .behind []) hcuts stuck).symm.trans he
    refine ⟨before, hcuts, stuck, ?_⟩
    rw [← Except.error.inj hscan, Position.foldl_advance_behind, List.nil_append]
  · rintro ⟨before, hcuts, stuck, hposition⟩
    have hscan := scan_of_cuts (p := .behind []) hcuts stuck
    rw [Position.foldl_advance_behind, List.nil_append, ← hposition] at hscan
    exact hscan

/-- An accent of two bytes in a comment, and a mnemonic that there is not. -/
def accentedSource : String :=
  "; é\na: halt\n\tnop"

/-- Behind the same comment, an accent where no token can start. -/
def misplacedSource : String :=
  "; é\n b é"

theorem lexing_lossless_accented :
    (∃ e before t after, assemble accentedSource = .error (.unresolved e) ∧
      tokens accentedSource = .ok (before ++ t :: after) ∧
      textOf (before ++ t :: after) = terminated accentedSource ∧
      t.position = .behind (textOf before) ∧ 1 + (textOf before).count '\n' = 3 ∧
      e.message = "line 3: unknown mnemonic: nop") ∧
    ∃ e, tokens misplacedSource = .error e ∧ e.position = ⟨2, 4, 8⟩ ∧
      ∃ before, Cuts (terminated misplacedSource) before e.rest ∧ Stuck e.rest ∧
        e.position = .behind (textOf before) := by
  constructor
  · have herror : assemble accentedSource = .error (.unresolved ⟨3, .unknownMnemonic "nop"⟩) :=
      error?_eq_some.mp (by decide +kernel)
    obtain ⟨-, -, -, before, t, after, -, -, hts, -, -, hplace, -⟩ :=
      (lexing_lossless accentedSource).2.1 _ herror
    obtain ⟨htext, -, -, hposition⟩ := (lexing_lossless accentedSource).1 _ hts
    exact ⟨_, before, t, after, herror, hts, htext, hposition before t after rfl, hplace.symm,
      by decide +kernel⟩
  · have herror : tokens misplacedSource = .error ⟨⟨2, 4, 8⟩, ['é', '\n']⟩ :=
      error?_eq_some.mp (by decide +kernel)
    exact ⟨_, herror, rfl, ((lexing_lossless misplacedSource).2.2 _).mp herror⟩

end RegisterMachine.Assembly
