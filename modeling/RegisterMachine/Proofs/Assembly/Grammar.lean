import RegisterMachine.Proofs.Assembly.Parsing
import RegisterMachine.Proofs.Assembly.Reading
import RegisterMachine.Proofs.Assembly.Tiling

/-!
# Listings and their tokens

Reading a text keeps its tokens: written out again, the lines give the tokens of the text in their
order, but for blanks, comments, line ends and commas, which carry no meaning.
-/

set_option autoImplicit false

namespace RegisterMachine.Assembly

open Checks

/-! ### What lines say -/

/-- The tokens of a line that carry its meaning, with their kinds. -/
def Line.spellings : Line → List (TokenKind × String)
  | .label _ name => [(.name, name), (.colon, ":")]
  | .statement s => (.name, s.mnemonic) :: s.operands.flatMap fun o => o.text.spellings

theorem map_snd_operandSpellings (o : OperandText) : o.spellings.map (·.2) = o.tokenTexts := by
  match o with
  | .register _ | .number _ | .name _ | .address none _ | .address (some _) _ => rfl

theorem map_snd_spellings (line : Line) : line.spellings.map (·.2) = line.tokenTexts := by
  cases line with
  | label position name => rfl
  | statement s =>
    simp only [Line.spellings, Line.tokenTexts, List.map_cons, List.map_flatMap,
      map_snd_operandSpellings]

/-! ### Reading keeps the tokens -/

/-- Whether a token of this kind carries meaning of its own. -/
def TokenKind.isContent : TokenKind → Bool
  | .comment | .lineEnd | .blank | .comma => false
  | _ => true

/-- A punctuation token consists of its character. -/
def Token.Regular (t : Token) : Prop :=
  ∀ c, punctuation? c = some t.kind → t.text = String.singleton c

theorem Lexes.eq_punctuation {cs text : List Char} {kind : TokenKind} (h : Lexes cs kind text)
    {c : Char} (hc : punctuation? c = some kind) : text = [c] := by
  unfold punctuation? at hc
  split at hc
  case h_5 => cases hc
  all_goals
    obtain rfl := Option.some.inj hc
    cases h with
    | punctuation start =>
      unfold punctuation? at start
      split at start <;> simp_all

theorem Tiles.regular {p : Position} {cs : List Char} {tokens : List Token}
    (h : Tiles p cs tokens) : ∀ t ∈ tokens, t.Regular := by
  induction h with
  | nil => nofun
  | cons first others ih =>
    refine List.forall_mem_cons.mpr ⟨fun c hc => ?_, ih⟩
    obtain rfl := first.eq_punctuation hc
    rfl

/-- The tokens that carry meaning, wherever they stand. -/
def contentOf (ts : List Token) : List (TokenKind × String) :=
  (ts.filter fun t => t.kind.isContent).map Token.spelling

/-- The tokens of the statement that is still taking operands. -/
def pendingSpellings : Option Statement → List (TokenKind × String)
  | none => []
  | some s => (Line.statement s).spellings

section Content

variable {t : Token} {ts : List Token} {kind : TokenKind}

theorem contentOf_cons (hkind : t.kind = kind) (h : kind.isContent = true) :
    contentOf (t :: ts) = (kind, t.text) :: contentOf ts := by
  subst hkind
  simp [contentOf, h, Token.spelling]

theorem contentOf_separator (hkind : t.kind = kind) (h : kind.isContent = false) :
    contentOf (t :: ts) = contentOf ts := by
  subst hkind
  simp [contentOf, h]

theorem contentOf_append (ts us : List Token) :
    contentOf (ts ++ us) = contentOf ts ++ contentOf us := by
  simp [contentOf]

theorem contentOf_filter (ts : List Token) :
    contentOf (ts.filter Token.isSignificant) = contentOf ts := by
  rw [contentOf, contentOf, List.filter_filter]
  refine congrArg _ (List.filter_congr fun t _ => ?_)
  cases hkind : t.kind <;> simp [Token.isSignificant, TokenKind.isContent, hkind]

theorem Token.Regular.text_eq (h : t.Regular) (hkind : t.kind = kind) (c : Char)
    (hc : punctuation? c = some kind) : t.text = String.singleton c :=
  h c (hkind ▸ hc)

/-- The tokens of an operand say what the operand says. -/
theorem contentOf_forms {o : OperandText} {taken : List Token} (forms : Forms o taken)
    (regular : ∀ u ∈ taken, u.Regular) : contentOf (taken ++ ts) = o.spellings ++ contentOf ts := by
  cases forms with
  | register kind | number kind | name kind => exact contentOf_cons kind rfl
  | bare opens kind closes =>
    simp only [List.forall_mem_cons] at regular
    obtain ⟨hopening, -, hclosing, -⟩ := regular
    simp only [List.cons_append, List.nil_append]
    rw [contentOf_cons opens rfl, contentOf_cons kind rfl, contentOf_cons closes rfl,
      hopening.text_eq opens '(' rfl, hclosing.text_eq closes ')' rfl]
    rfl
  | address number opens kind closes =>
    simp only [List.forall_mem_cons] at regular
    obtain ⟨-, hopening, -, hclosing, -⟩ := regular
    simp only [List.cons_append, List.nil_append]
    rw [contentOf_cons number rfl, contentOf_cons opens rfl, contentOf_cons kind rfl,
      contentOf_cons closes rfl, hopening.text_eq opens '(' rfl, hclosing.text_eq closes ')' rfl]
    rfl

/-- A statement takes an operand whose tokens come next. -/
theorem pendingSpellings_append {s : Statement} {p : Position} {o : OperandText} {rest : List Token}
    (h : contentOf ts = o.spellings ++ contentOf rest) :
    pendingSpellings (some s) ++ contentOf ts =
      pendingSpellings (some { s with operands := s.operands ++ [⟨p, o⟩] }) ++ contentOf rest := by
  simp [h, pendingSpellings, Line.spellings]

/-- **The lines that are read have the tokens that were read.** -/
theorem spellings_readLines {state : Option Statement} {comma : Bool} {lines : List Line}
    (h : readLines state comma ts = .ok lines) (regular : ∀ t ∈ ts, t.Regular) :
    pendingSpellings state ++ contentOf ts = lines.flatMap Line.spellings := by
  replace h := parses_of_readWithin h
  induction h with
  | finished => rfl
  | last => simp [pendingSpellings, contentOf]
  | emptyLine kind others ih =>
    rw [contentOf_separator kind rfl]
    exact ih (List.forall_mem_cons.mp regular).2
  | label kind marks others ih =>
    simp only [List.forall_mem_cons] at regular
    obtain ⟨-, hcolon, hrest⟩ := regular
    rw [contentOf_cons kind rfl, contentOf_cons marks rfl, hcolon.text_eq marks ':' rfl,
      List.flatMap_cons, ← ih hrest]
    rfl
  | mnemonic kind unmarked others ih =>
    rw [contentOf_cons kind rfl, ← ih (List.forall_mem_cons.mp regular).2]
    rfl
  | lineEnd kind others ih =>
    rw [contentOf_separator kind rfl, List.flatMap_cons,
      ← ih (List.forall_mem_cons.mp regular).2]
    rfl
  | comma kind others ih =>
    rw [contentOf_separator kind rfl]
    exact ih (List.forall_mem_cons.mp regular).2
  | operand forms ends others ih =>
    obtain ⟨htaken, hrest⟩ := List.forall_mem_append.mp regular
    rw [pendingSpellings_append (contentOf_forms forms htaken)]
    exact ih hrest

/-- **Reading loses and invents no token.** -/
theorem spellings_readListing {source : String} {lines : List Line}
    (h : readListing source = .ok lines) :
    ∃ ts, tokens source = .ok ts ∧ contentOf ts = lines.flatMap Line.spellings := by
  unfold readListing at h
  split at h
  · cases h
  · next ts hts =>
    refine ⟨ts, hts, ?_⟩
    have regular : ∀ t ∈ ts.filter Token.isSignificant, t.Regular := fun t ht =>
      (tiles_of_scan hts).regular t (List.mem_filter.mp ht).1
    rw [← contentOf_filter, ← spellings_readLines h regular]
    rfl

end Content

end RegisterMachine.Assembly
