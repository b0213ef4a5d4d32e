import RegisterMachine.Assembly.Printer
import RegisterMachine.Proofs.Assembly.Lexing
import RegisterMachine.Proofs.Checks

/-!
# Statements read back

What a statement says is its mnemonic and its operands; a listing of statements that are written
one a line, with blanks in front of the operands, is read back as these statements.
-/

set_option autoImplicit false

namespace RegisterMachine.Assembly

open Checks

/-! ### Texts made of pieces -/

section Pieces

variable {α : Type}

/-- A text to which the pieces of a list are added one by one. -/
theorem toList_foldl {add : String → α → String} {piece : α → List Char}
    (h : ∀ (text : String) (x : α), (add text x).toList = text.toList ++ piece x) (xs : List α)
    (start : String) : (xs.foldl add start).toList = start.toList ++ xs.flatMap piece := by
  induction xs generalizing start with
  | nil => simp
  | cons x xs ih => simp [ih, h]

theorem getLast?_flatMap {piece : α → List Char} {c : Char}
    (h : ∀ x, (piece x).getLast? = some c) (x : α) (xs : List α) :
    ((x :: xs).flatMap piece).getLast? = some c := by
  induction xs generalizing x with
  | nil => simpa using h x
  | cons y ys ih =>
    rw [List.flatMap_cons, List.getLast?_append, ih]
    rfl

end Pieces

/-- The text is one token of this kind. -/
def IsToken (kind : TokenKind) (text : String) : Prop :=
  lexeme? text.toList = some (kind, text.toList)

instance (kind : TokenKind) (text : String) : Decidable (IsToken kind text) :=
  inferInstanceAs (Decidable (_ = _))

/-! ### Operands -/

namespace OperandText

/-- The parts of the operand are tokens of their kinds. -/
def WellFormed : OperandText → Prop
  | .register token => IsToken .register token
  | .address none base => IsToken .register base
  | .address (some offset) base => IsToken .number offset ∧ IsToken .register base
  | .number token => IsToken .number token
  | .name token => IsToken .name token

def spellings : OperandText → List (TokenKind × String)
  | .register token => [(.register, token)]
  | .address none base => [(.leftParen, "("), (.register, base), (.rightParen, ")")]
  | .address (some offset) base =>
    [(.number, offset), (.leftParen, "("), (.register, base), (.rightParen, ")")]
  | .number token => [(.number, token)]
  | .name token => [(.name, token)]

theorem solid_spellings (o : OperandText) : ∀ spelling ∈ o.spellings, spelling.1 ≠ .lineEnd := by
  match o with
  | .register _ | .number _ | .name _ | .address none _ | .address (some _) _ => simp [spellings]

end OperandText

theorem Stops.cons {c : Char} {rest : List Char} (hc : isNameChar c = false) :
    Stops (c :: rest) := by
  intro d hd
  rw [← Option.some.inj hd]
  exact hc

section Lexing

variable {rest : List Char} {spellings : List (TokenKind × String)}

theorem Spells.string (h : Spells rest spellings) (hstops : Stops rest) {kind : TokenKind}
    {text : String} (htext : IsToken kind text) (hcomment : kind ≠ .comment)
    (hblank : kind ≠ .blank) : Spells (text.toList ++ rest) ((kind, text) :: spellings) := by
  have hs := h.token hstops htext hcomment hblank
  rwa [String.ofList_toList] at hs

theorem Spells.base (h : Spells rest spellings) (hstops : Stops rest) {base : String}
    (hbase : IsToken .register base) :
    Spells ('(' :: (base.toList ++ ')' :: rest))
      ((.leftParen, "(") :: (.register, base) :: (.rightParen, ")") :: spellings) := by
  have hclose := h.string hstops (show IsToken .rightParen ")" by decide) (by decide) (by decide)
  have hreg := hclose.string (.cons (by decide)) hbase (by decide) (by decide)
  -- Nothing can follow a parenthesis and belong to it.
  have hopen : lexeme? (['('] ++ (base.toList ++ ')' :: rest)) = some (.leftParen, ['(']) := rfl
  exact hreg.cons hopen (by decide) (by decide) (by decide)

theorem toList_source (o : OperandText) : o.source.toList = o.tokenTexts.flatMap String.toList := by
  show (o.tokenTexts.foldl (· ++ ·) "").toList = "".toList ++ o.tokenTexts.flatMap String.toList
  exact toList_foldl (by simp) o.tokenTexts ""

/-- **An operand is lexed as its spellings.** -/
theorem Spells.operand (h : Spells rest spellings) (hstops : Stops rest) {o : OperandText}
    (ho : o.WellFormed) : Spells (o.source.toList ++ rest) (o.spellings ++ spellings) := by
  rw [toList_source]
  match o with
  | .register token | .number token | .name token =>
    simpa [OperandText.tokenTexts, OperandText.spellings] using
      h.string hstops ho (by decide) (by decide)
  | .address none base =>
    simpa [OperandText.tokenTexts, OperandText.spellings] using h.base hstops ho
  | .address (some offset) base =>
    simpa [OperandText.tokenTexts, OperandText.spellings] using
      (h.base hstops ho.2).string (.cons (by decide)) ho.1 (by decide) (by decide)

/-- A token that is no blank does not start with one. -/
theorem IsToken.head_not_blank {kind : TokenKind} {text : String} (h : IsToken kind text)
    (hblank : kind ≠ .blank) : ∀ c ∈ (text.toList ++ rest).head?, isBlank c = false := by
  intro c hc
  refine Bool.eq_false_iff.mpr fun hb => hblank ?_
  unfold IsToken at h
  cases ht : text.toList with
  | nil =>
    rw [ht] at h
    cases h
  | cons d tail =>
    rw [ht] at h hc
    obtain rfl : d = c := Option.some.inj hc
    simp only [isBlank, Bool.or_eq_true, beq_iff_eq] at hb
    rcases hb with (rfl | rfl) | rfl <;> exact (congrArg Prod.fst (Option.some.inj h)).symm

theorem OperandText.WellFormed.head_not_blank {o : OperandText} (ho : o.WellFormed) :
    ∀ c ∈ (o.source.toList ++ rest).head?, isBlank c = false := by
  rw [toList_source]
  match o with
  | .register token | .number token | .name token =>
    rw [tokenTexts, List.flatMap_cons, List.append_assoc]
    exact IsToken.head_not_blank ho (by decide)
  | .address none base => simp [tokenTexts, isBlank]
  | .address (some offset) base =>
    rw [tokenTexts, List.flatMap_cons, List.append_assoc]
    exact IsToken.head_not_blank ho.1 (by decide)

theorem Spells.blank (h : Spells rest spellings) (hrest : ∀ c ∈ rest.head?, isBlank c = false) :
    Spells (' ' :: rest) spellings :=
  show Spells ([' '] ++ rest) spellings from h.skip (lexeme?_blank hrest) (by decide)

theorem Stops.operands (os : List OperandText) (rest : List Char) :
    Stops (os.flatMap (fun o => ' ' :: o.source.toList) ++ '\n' :: rest) := by
  cases os <;> exact .cons (by decide)

/-- Operands with a blank in front of each, up to the line end. -/
theorem Spells.operands (h : Spells ('\n' :: rest) spellings) {os : List OperandText}
    (hos : ∀ o ∈ os, o.WellFormed) :
    Spells (os.flatMap (fun o => ' ' :: o.source.toList) ++ '\n' :: rest)
      (os.flatMap OperandText.spellings ++ spellings) := by
  induction os with
  | nil => exact h
  | cons o os ih =>
    obtain ⟨ho, hos⟩ := List.forall_mem_cons.mp hos
    simpa using ((ih hos).operand (.operands os rest) ho).blank ho.head_not_blank

end Lexing

section Reading

variable {ts rest : List Token} {o : OperandText}

theorem map_spelling_eq_cons {kind : TokenKind} {text : String}
    {spellings : List (TokenKind × String)}
    (h : ts.map Token.spelling = (kind, text) :: spellings) :
    ∃ p tail, ts = ⟨kind, text, p⟩ :: tail ∧ tail.map Token.spelling = spellings := by
  obtain ⟨⟨kind', text', p⟩, tail, rfl, ht, htail⟩ := List.map_eq_cons_iff.mp h
  obtain ⟨rfl, rfl⟩ := Prod.mk.inj ht
  exact ⟨p, tail, rfl, htail⟩

/-- **The tokens of an operand are taken as one operand**, whatever statement they continue. A
number must not stand before a parenthesis, which would make it an offset. -/
theorem readLines_operand (h : ts.map Token.spelling = o.spellings)
    (hnext : ∀ t ∈ rest.head?, t.kind ≠ .leftParen) :
    ∃ p, ∀ (s : Statement) (comma : Bool), readLines (some s) comma (ts ++ rest) =
      readLines (some { s with operands := s.operands ++ [⟨p, o⟩] }) true rest := by
  match o with
  | .register token | .name token =>
    obtain ⟨p, tail, rfl, htail⟩ := map_spelling_eq_cons h
    obtain rfl := List.map_eq_nil_iff.mp htail
    exact ⟨p, fun _ _ => rfl⟩
  | .address none base =>
    obtain ⟨p, _, rfl, hbase⟩ := map_spelling_eq_cons h
    obtain ⟨_, _, rfl, hclose⟩ := map_spelling_eq_cons hbase
    obtain ⟨_, _, rfl, htail⟩ := map_spelling_eq_cons hclose
    obtain rfl := List.map_eq_nil_iff.mp htail
    exact ⟨p, fun _ _ => rfl⟩
  | .address (some offset) base =>
    obtain ⟨p, _, rfl, hopen⟩ := map_spelling_eq_cons h
    obtain ⟨_, _, rfl, hbase⟩ := map_spelling_eq_cons hopen
    obtain ⟨_, _, rfl, hclose⟩ := map_spelling_eq_cons hbase
    obtain ⟨_, _, rfl, htail⟩ := map_spelling_eq_cons hclose
    obtain rfl := List.map_eq_nil_iff.mp htail
    exact ⟨p, fun _ _ => rfl⟩
  | .number token =>
    obtain ⟨p, tail, rfl, htail⟩ := map_spelling_eq_cons h
    obtain rfl := List.map_eq_nil_iff.mp htail
    refine ⟨p, fun s comma => ?_⟩
    cases rest with
    | nil => rfl
    | cons t rest =>
      have ht : t.kind ≠ .leftParen := hnext t rfl
      obtain ⟨kind, text, q⟩ := t
      cases kind with
      | leftParen => exact absurd rfl ht
      | _ => rfl

theorem readLines_lineEnd {p : Position} (s : Statement) (comma : Bool) {lines : List Line}
    (h : readLines none false rest = .ok lines) :
    readLines (some s) comma (⟨.lineEnd, "\n", p⟩ :: rest) = .ok (.statement s :: lines) := by
  change (readLines none false rest >>= fun lines => pure (.statement s :: lines)) = _
  rw [h]
  rfl

theorem readLines_mnemonic {text : String} {p : Position}
    (hnext : ∀ t ∈ rest.head?, t.kind ≠ .colon) :
    readLines none false (⟨.name, text, p⟩ :: rest) =
      readLines (some { position := p, mnemonic := text, operands := [] }) false rest := by
  cases rest with
  | nil => rfl
  | cons t rest =>
    have ht : t.kind ≠ .colon := hnext t rfl
    obtain ⟨kind, _, _⟩ := t
    cases kind with
    | colon => exact absurd rfl ht
    | _ => rfl

/-- What follows a mnemonic or an operand is no colon and no parenthesis, unless it is a bare
address. -/
theorem head_kind_of_operands {os : List OperandText} {p : Position}
    (h : ts.map Token.spelling = os.flatMap OperandText.spellings)
    (hos : ∀ o ∈ os, ∀ base, o ≠ .address none base) :
    ∀ t ∈ (ts ++ ⟨.lineEnd, "\n", p⟩ :: rest).head?, t.kind ≠ .leftParen ∧ t.kind ≠ .colon := by
  intro t ht
  cases os with
  | nil =>
    obtain rfl := List.map_eq_nil_iff.mp h
    simp [← Option.some.inj ht]
  | cons o os =>
    rw [List.flatMap_cons] at h
    match o with
    | .register token | .number token | .name token | .address (some offset) base =>
      obtain ⟨q, tail, rfl, -⟩ := map_spelling_eq_cons h
      simp [← Option.some.inj ht]
    | .address none base => exact absurd rfl (hos _ List.mem_cons_self base)

/-- **Operands up to the line end complete a statement.** -/
theorem readLines_operands {os : List OperandText}
    (h : ts.map Token.spelling = os.flatMap OperandText.spellings)
    (hos : ∀ o ∈ os, ∀ base, o ≠ .address none base) (p : Position) {lines : List Line}
    (hlines : readLines none false rest = .ok lines) :
    ∃ operands : List Operand, operands.map (·.text) = os ∧
      ∀ (s : Statement) (comma : Bool),
        readLines (some s) comma (ts ++ ⟨.lineEnd, "\n", p⟩ :: rest) =
          .ok (.statement { s with operands := s.operands ++ operands } :: lines) := by
  induction os generalizing ts with
  | nil =>
    obtain rfl := List.map_eq_nil_iff.mp h
    refine ⟨[], rfl, fun s comma => ?_⟩
    simpa using readLines_lineEnd s comma hlines
  | cons o os ih =>
    have hos' := (List.forall_mem_cons.mp hos).2
    obtain ⟨first, others, rfl, hfirst, hothers⟩ := List.map_eq_append_iff.mp h
    obtain ⟨operands, htexts, hread⟩ := ih hothers hos'
    obtain ⟨q, hoperand⟩ := readLines_operand hfirst
      fun t ht => (head_kind_of_operands (p := p) hothers hos' t ht).1
    refine ⟨⟨q, o⟩ :: operands, by rw [List.map_cons, htexts], fun s comma => ?_⟩
    rw [List.append_assoc, hoperand, hread]
    simp

end Reading

/-! ### Statements -/

/-- What a statement says, wherever it stands. -/
structure StatementText where
  mnemonic : String
  operands : List OperandText

def Statement.content (s : Statement) : StatementText :=
  { mnemonic := s.mnemonic, operands := s.operands.map (·.text) }

namespace StatementText

/-- A line of its own, with a blank in front of each operand. -/
def source (t : StatementText) : List Char :=
  t.mnemonic.toList ++ t.operands.flatMap (fun o => ' ' :: o.source.toList) ++ ['\n']

def spellings (t : StatementText) : List (TokenKind × String) :=
  (.name, t.mnemonic) :: t.operands.flatMap OperandText.spellings ++ [(.lineEnd, "\n")]

structure WellFormed (t : StatementText) : Prop where
  mnemonic : IsToken .name t.mnemonic
  operands : ∀ o ∈ t.operands, o.WellFormed
  /-- A number and a bare address behind it would be one operand. -/
  no_bare : ∀ o ∈ t.operands, ∀ base, o ≠ .address none base

end StatementText

/-- **Lines of statements are lexed as their spellings.** -/
theorem Spells.statements {texts : List StatementText} (h : ∀ t ∈ texts, t.WellFormed) :
    Spells (texts.flatMap StatementText.source) (texts.flatMap StatementText.spellings) := by
  induction texts with
  | nil => exact .nil
  | cons t texts ih =>
    obtain ⟨ht, hrest⟩ := List.forall_mem_cons.mp h
    have hline : lexeme? (['\n'] ++ texts.flatMap StatementText.source) =
      some (.lineEnd, ['\n']) := rfl
    have hend := (ih hrest).cons hline (by decide) (by decide) (by decide)
    have hoperands := Spells.operands hend ht.operands
    have hs := hoperands.string (.operands _ _) ht.mnemonic (by decide) (by decide)
    simpa [StatementText.source, StatementText.spellings] using hs

/-- **The tokens of statements are read as these statements.** -/
theorem readLines_statements {texts : List StatementText} (h : ∀ t ∈ texts, t.WellFormed)
    {ts : List Token} (hts : ts.map Token.spelling = texts.flatMap StatementText.spellings) :
    ∃ ss : List Statement, readLines none false ts = .ok (ss.map .statement) ∧
      ss.map Statement.content = texts := by
  induction texts generalizing ts with
  | nil =>
    obtain rfl := List.map_eq_nil_iff.mp hts
    exact ⟨[], rfl, rfl⟩
  | cons t texts ih =>
    obtain ⟨ht, hrest⟩ := List.forall_mem_cons.mp h
    rw [List.flatMap_cons, StatementText.spellings, List.cons_append, List.cons_append,
      List.append_assoc] at hts
    obtain ⟨p, _, rfl, hbehind⟩ := map_spelling_eq_cons hts
    obtain ⟨operandTokens, _, rfl, hoperands, hend⟩ := List.map_eq_append_iff.mp hbehind
    obtain ⟨q, _, rfl, hothers⟩ := map_spelling_eq_cons hend
    obtain ⟨ss, hlines, hcontent⟩ := ih hrest hothers
    obtain ⟨operands, htexts, hread⟩ := readLines_operands hoperands ht.no_bare q hlines
    refine ⟨⟨p, t.mnemonic, operands⟩ :: ss, ?_, ?_⟩
    · rw [readLines_mnemonic fun t' ht' => (head_kind_of_operands hoperands ht.no_bare t' ht').2,
        hread]
      rfl
    · rw [List.map_cons, hcontent, Statement.content, htexts]

theorem terminated_statements {source : String} {t : StatementText} {texts : List StatementText}
    (hsource : source.toList = (t :: texts).flatMap StatementText.source) :
    terminated source = (t :: texts).flatMap StatementText.source := by
  have hlast : ((t :: texts).flatMap StatementText.source).getLast? = some '\n' :=
    getLast?_flatMap (by simp [StatementText.source]) t texts
  rw [terminated, hsource, if_pos hlast]

/-- **A text of statement lines is a listing of these statements.** -/
theorem readListing_statements {texts : List StatementText} (h : ∀ t ∈ texts, t.WellFormed)
    {source : String} (hsource : source.toList = texts.flatMap StatementText.source) :
    ∃ ss : List Statement, readListing source = .ok (ss.map .statement) ∧
      ss.map Statement.content = texts := by
  cases texts with
  | nil =>
    -- The empty text still gets its line end, which is an empty line.
    have hempty : source = "" := String.toList_injective (by simpa using hsource)
    subst hempty
    exact ⟨[], rfl, rfl⟩
  | cons t texts =>
    obtain ⟨ts, hscan, hts⟩ := Spells.statements h {}
    obtain ⟨ss, hread, hcontent⟩ := readLines_statements h hts
    refine ⟨ss, ?_, hcontent⟩
    rw [readListing, tokens, terminated_statements hsource, hscan]
    exact hread

end RegisterMachine.Assembly
