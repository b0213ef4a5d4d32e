import Mathlib.Data.List.TakeWhile
import RegisterMachine.Proofs.Assembly.Grammar
import RegisterMachine.Proofs.Assembly.Limits

/-!
# Written listings

No listing is out of reach: one whose names, registers and numbers follow their patterns can be
written as a text that is read back as the same lines, wherever these stand. Each line is written on
its own, with commas between operands.
-/

set_option autoImplicit false

namespace RegisterMachine.Assembly

open Checks

/-- What a line says, wherever it stands. -/
inductive LineText where
  | label (name : String)
  | statement (text : StatementText)

def Line.content : Line → LineText
  | .label _ name => .label name
  | .statement s => .statement s.content

/-! ### Patterns -/

/-- The texts of names, registers and numbers. -/
inductive Pattern : TokenKind → List Char → Prop
  | name {c : Char} {rest : List Char} (start : isNameStart c = true)
      (others : ∀ d ∈ rest, isNameChar d = true) : Pattern .name (c :: rest)
  | register {c : Char} {rest : List Char} (letter : c.isAlpha = true)
      (others : ∀ d ∈ rest, d.isAlphanum = true) : Pattern .register ('$' :: c :: rest)
  | unsigned {digits : List Char} (nonempty : digits ≠ [])
      (all : ∀ d ∈ digits, d.isDigit = true) : Pattern .number digits
  | signed {c : Char} {digits : List Char} (sign : c = '-' ∨ c = '+') (nonempty : digits ≠ [])
      (all : ∀ d ∈ digits, d.isDigit = true) : Pattern .number (c :: digits)

def OperandText.Conforms : OperandText → Prop
  | .register token => Pattern .register token.toList
  | .address none base => Pattern .register base.toList
  | .address (some offset) base => Pattern .number offset.toList ∧ Pattern .register base.toList
  | .number token => Pattern .number token.toList
  | .name token => Pattern .name token.toList

/-- The names, registers and numbers of the line follow their patterns. -/
def Line.Conforms : Line → Prop
  | .label _ name => Pattern .name name.toList
  | .statement s => Pattern .name s.mnemonic.toList ∧ ∀ o ∈ s.operands, o.text.Conforms

theorem isToken_of_pattern {kind : TokenKind} {token : String} (h : Pattern kind token.toList) :
    IsToken kind token := by
  unfold IsToken
  generalize token.toList = cs at h
  refine lexeme?_of_lexes ?_
  cases h with
  | @name c rest start others =>
    have hlexes : Lexes (c :: rest) .name _ := .name start
    rwa [List.takeWhile_eq_self_iff.mpr others] at hlexes
  | @register c rest letter others =>
    have hlexes : Lexes ('$' :: c :: rest) .register _ := .register letter
    rwa [List.takeWhile_eq_self_iff.mpr others] at hlexes
  | unsigned nonempty all =>
    cases cs with
    | nil => exact absurd rfl nonempty
    | cons c rest =>
      obtain ⟨start, others⟩ := List.forall_mem_cons.mp all
      have hlexes : Lexes (c :: rest) .number _ := .digits start
      rwa [List.takeWhile_eq_self_iff.mpr others] at hlexes
  | @signed c digits sign nonempty all =>
    have hdigits := List.takeWhile_eq_self_iff.mpr all
    have hlexes : Lexes (c :: digits) .number _ := .signed sign (by rwa [hdigits])
    rwa [hdigits] at hlexes

theorem OperandText.Conforms.wellFormed {o : OperandText} (h : o.Conforms) : o.WellFormed := by
  match o with
  | .register _ | .number _ | .name _ | .address none _ => exact isToken_of_pattern h
  | .address (some _) _ => exact ⟨isToken_of_pattern h.1, isToken_of_pattern h.2⟩

/-! ### Written lines -/

/-- The text of operands with commas between them. -/
def separated : List OperandText → List Char
  | [] => []
  | o :: os => o.source.toList ++ os.flatMap fun o => ',' :: ' ' :: o.source.toList

def separatedSpellings : List OperandText → List (TokenKind × String)
  | [] => []
  | o :: os => o.spellings ++ os.flatMap fun o => (.comma, ",") :: o.spellings

/-- The tokens of a line that is written on its own. -/
def LineText.spellings : LineText → List (TokenKind × String)
  | .label name => [(.name, name), (.colon, ":"), (.lineEnd, "\n")]
  | .statement t =>
    (.name, t.mnemonic) :: (separatedSpellings t.operands ++ [(.lineEnd, "\n")])

theorem intercalate_eq_separated (os : List OperandText) :
    (", ".intercalate (os.map OperandText.source)).toList = separated os := by
  rw [String.toList_intercalate]
  cases os with
  | nil => rfl
  | cons o os =>
    induction os generalizing o with
    | nil => simp [separated]
    | cons o' os ih =>
      simp only [List.map_cons] at ih ⊢
      rw [List.intercalate_cons_cons, ih]
      simp [separated]

theorem toList_statementSource (s : Statement) :
    (Line.statement s).source.toList =
      s.mnemonic.toList ++ ' ' :: (separated s.content.operands ++ ['\n']) := by
  have hoperands := intercalate_eq_separated s.content.operands
  rw [Statement.content, List.map_map] at hoperands
  simp only [Line.source, String.toList_append, Statement.content]
  rw [← hoperands]
  simp [Function.comp_def]

theorem toList_listingSource (lines : List Line) :
    (listingSource lines).toList = lines.flatMap fun line => line.source.toList := by
  show (listingSource lines).toList = "".toList ++ lines.flatMap fun line => line.source.toList
  exact toList_foldl (by simp) lines ""

section Lexing

variable {rest : List Char} {spellings : List (TokenKind × String)}

theorem Stops.furtherOperands (os : List OperandText) :
    Stops (os.flatMap (fun o => ',' :: ' ' :: o.source.toList) ++ '\n' :: rest) := by
  cases os <;> exact .cons (by decide)

/-- Operands with a comma in front of each, up to the line end. -/
theorem Spells.furtherOperands (h : Spells ('\n' :: rest) spellings) {os : List OperandText}
    (hos : ∀ o ∈ os, o.Conforms) :
    Spells (os.flatMap (fun o => ',' :: ' ' :: o.source.toList) ++ '\n' :: rest)
      (os.flatMap (fun o => (.comma, ",") :: o.spellings) ++ spellings) := by
  induction os with
  | nil => exact h
  | cons o os ih =>
    obtain ⟨ho, hos⟩ := List.forall_mem_cons.mp hos
    have hoperand := (ih hos).operand (.furtherOperands os) ho.wellFormed
    have hblank := hoperand.blank ho.wellFormed.head_not_blank
    have hcomma : ∀ text, lexeme? ([','] ++ text) = some (.comma, [',']) := fun _ => rfl
    simpa using hblank.cons (hcomma _) (by decide) (by decide) (by decide)

theorem Spells.separated (h : Spells ('\n' :: rest) spellings) {os : List OperandText}
    (hos : ∀ o ∈ os, o.Conforms) :
    Spells (' ' :: (separated os ++ '\n' :: rest)) (separatedSpellings os ++ spellings) := by
  cases os with
  | nil => exact h.blank (by simp [isBlank])
  | cons o os =>
    obtain ⟨ho, hos⟩ := List.forall_mem_cons.mp hos
    have hoperand := (h.furtherOperands hos).operand (.furtherOperands os) ho.wellFormed
    simpa [Assembly.separated, separatedSpellings] using
      hoperand.blank ho.wellFormed.head_not_blank

/-- **A line is lexed as its tokens.** -/
theorem Spells.line (h : Spells rest spellings) {line : Line} (hline : line.Conforms) :
    Spells (line.source.toList ++ rest) (line.content.spellings ++ spellings) := by
  have hlineEnd : lexeme? (['\n'] ++ rest) = some (.lineEnd, ['\n']) := rfl
  have hend := h.cons hlineEnd (by decide) (by decide) (by decide)
  cases line with
  | label position name =>
    have hcolon : lexeme? ([':'] ++ ('\n' :: rest)) = some (.colon, [':']) := rfl
    have hbehind := hend.cons hcolon (by decide) (by decide) (by decide)
    have hname := hbehind.string (.cons (by decide)) (isToken_of_pattern hline) (by decide)
      (by decide)
    simpa [Line.source, Line.content, LineText.spellings] using hname
  | statement s =>
    obtain ⟨hmnemonic, hoperands⟩ := hline
    have hcontent : ∀ o ∈ s.content.operands, o.Conforms := by
      simpa [Statement.content] using hoperands
    have hname := (hend.separated hcontent).string (.cons (by decide))
      (isToken_of_pattern hmnemonic) (by decide) (by decide)
    rw [toList_statementSource]
    simpa [Line.content, LineText.spellings, Statement.content] using hname

theorem Spells.lines {lines : List Line} (h : ∀ line ∈ lines, line.Conforms) :
    Spells (lines.flatMap fun line => line.source.toList)
      (lines.flatMap fun line => line.content.spellings) := by
  induction lines with
  | nil => exact .nil
  | cons line lines ih =>
    obtain ⟨hline, hlines⟩ := List.forall_mem_cons.mp h
    exact (ih hlines).line hline

end Lexing

section Reading

variable {ts rest : List Token}

/-- What follows an operand is a comma or a line end. -/
theorem head_kind_of_furtherOperands {os : List OperandText} {p : Position}
    (h : ts.map Token.spelling = os.flatMap fun o => (.comma, ",") :: o.spellings) :
    ∀ t ∈ (ts ++ ⟨.lineEnd, "\n", p⟩ :: rest).head?, t.kind ≠ .leftParen := by
  intro t ht
  cases os with
  | nil =>
    obtain rfl := List.map_eq_nil_iff.mp h
    simp [← Option.some.inj ht]
  | cons o os =>
    rw [List.flatMap_cons] at h
    obtain ⟨q, tail, rfl, -⟩ := map_spelling_eq_cons h
    simp [← Option.some.inj ht]

/-- **Operands behind commas complete a statement.** -/
theorem readLines_furtherOperands {os : List OperandText}
    (h : ts.map Token.spelling = os.flatMap fun o => (.comma, ",") :: o.spellings) (p : Position)
    {lines : List Line} (hlines : readLines none false rest = .ok lines) :
    ∃ operands : List Operand, operands.map (·.text) = os ∧
      ∀ s : Statement, readLines (some s) true (ts ++ ⟨.lineEnd, "\n", p⟩ :: rest) =
        .ok (.statement { s with operands := s.operands ++ operands } :: lines) := by
  induction os generalizing ts with
  | nil =>
    obtain rfl := List.map_eq_nil_iff.mp h
    refine ⟨[], rfl, fun s => ?_⟩
    simpa using readLines_lineEnd s true hlines
  | cons o os ih =>
    rw [List.flatMap_cons, List.cons_append] at h
    obtain ⟨q, _, rfl, hbehind⟩ := map_spelling_eq_cons h
    obtain ⟨first, others, rfl, hfirst, hothers⟩ := List.map_eq_append_iff.mp hbehind
    obtain ⟨operands, htexts, hread⟩ := ih hothers
    obtain ⟨r, hoperand⟩ := readLines_operand hfirst (head_kind_of_furtherOperands hothers)
    refine ⟨⟨r, o⟩ :: operands, by rw [List.map_cons, htexts], fun s => ?_⟩
    have hcomma : readLines (some s) true
        (⟨.comma, ",", q⟩ :: (first ++ others) ++ ⟨.lineEnd, "\n", p⟩ :: rest) =
      readLines (some s) false (first ++ (others ++ ⟨.lineEnd, "\n", p⟩ :: rest)) := by
      rw [List.cons_append, List.append_assoc]
      rfl
    rw [hcomma, hoperand, hread]
    simp

theorem head_kind_of_operand {o : OperandText} (h : ts.map Token.spelling = o.spellings) :
    ∀ t ∈ (ts ++ rest).head?, t.kind ≠ .colon := by
  intro t ht
  match o with
  | .register _ | .number _ | .name _ | .address none _ | .address (some _) _ =>
    obtain ⟨q, tail, rfl, -⟩ := map_spelling_eq_cons h
    simp [← Option.some.inj ht]

/-- **The tokens of a line are read as this line.** -/
theorem readLines_line {text : LineText} (h : ts.map Token.spelling = text.spellings)
    {lines : List Line} (hlines : readLines none false rest = .ok lines) :
    ∃ line, readLines none false (ts ++ rest) = .ok (line :: lines) ∧ line.content = text := by
  cases text with
  | label name =>
    obtain ⟨p, _, rfl, hcolon⟩ := map_spelling_eq_cons h
    obtain ⟨_, _, rfl, hend⟩ := map_spelling_eq_cons hcolon
    obtain ⟨_, _, rfl, htail⟩ := map_spelling_eq_cons hend
    obtain rfl := List.map_eq_nil_iff.mp htail
    refine ⟨.label p name, ?_, rfl⟩
    show (readLines none false rest >>= fun lines => pure (.label p name :: lines)) = _
    rw [hlines]
    rfl
  | statement t =>
    obtain ⟨p, _, rfl, hbehind⟩ := map_spelling_eq_cons h
    obtain ⟨operandTokens, _, rfl, hoperands, hend⟩ := List.map_eq_append_iff.mp hbehind
    obtain ⟨q, _, rfl, htail⟩ := map_spelling_eq_cons hend
    obtain rfl := List.map_eq_nil_iff.mp htail
    obtain ⟨mnemonic, os⟩ := t
    rw [List.cons_append, List.append_assoc, List.singleton_append]
    cases os with
    | nil =>
      obtain rfl := List.map_eq_nil_iff.mp hoperands
      refine ⟨.statement ⟨p, mnemonic, []⟩, ?_, rfl⟩
      rw [readLines_mnemonic (by simp)]
      exact readLines_lineEnd _ false hlines
    | cons o os =>
      obtain ⟨first, others, rfl, hfirst, hothers⟩ := List.map_eq_append_iff.mp hoperands
      obtain ⟨operands, htexts, hread⟩ := readLines_furtherOperands hothers q hlines
      obtain ⟨r, hoperand⟩ := readLines_operand hfirst (head_kind_of_furtherOperands hothers)
      refine ⟨.statement ⟨p, mnemonic, ⟨r, o⟩ :: operands⟩, ?_, ?_⟩
      · rw [List.append_assoc, readLines_mnemonic (head_kind_of_operand hfirst), hoperand, hread]
        rfl
      · rw [Line.content, Statement.content, List.map_cons, htexts]

theorem readLines_lines {texts : List LineText}
    (h : ts.map Token.spelling = texts.flatMap LineText.spellings) :
    ∃ lines, readLines none false ts = .ok lines ∧ lines.map Line.content = texts := by
  induction texts generalizing ts with
  | nil =>
    obtain rfl := List.map_eq_nil_iff.mp h
    exact ⟨[], rfl, rfl⟩
  | cons text texts ih =>
    obtain ⟨first, others, rfl, hfirst, hothers⟩ := List.map_eq_append_iff.mp h
    obtain ⟨lines, hlines, hcontent⟩ := ih hothers
    obtain ⟨line, hread, htext⟩ := readLines_line hfirst hlines
    exact ⟨line :: lines, hread, by rw [List.map_cons, htext, hcontent]⟩

end Reading

theorem getLast?_lineSource (line : Line) : line.source.toList.getLast? = some '\n' := by
  cases line <;> rw [Line.source, String.toList_append, List.getLast?_append] <;> rfl

section Listings

variable {lines lines' : List Line}

theorem terminated_listingSource (line : Line) (lines : List Line) :
    terminated (listingSource (line :: lines)) =
      (line :: lines).flatMap fun line => line.source.toList := by
  have hlast := getLast?_flatMap getLast?_lineSource line lines
  rw [terminated, toList_listingSource, if_pos hlast]

/-- **A written listing is read back.** -/
theorem readListing_listingSource (h : ∀ line ∈ lines, line.Conforms) :
    ∃ lines', readListing (listingSource lines) = .ok lines' ∧
      lines'.map Line.content = lines.map Line.content := by
  cases lines with
  | nil => exact ⟨[], rfl, rfl⟩
  | cons line lines =>
    obtain ⟨ts, hscan, hts⟩ := Spells.lines h {}
    rw [← List.flatMap_map] at hts
    obtain ⟨lines', hread, hcontent⟩ := readLines_lines hts
    refine ⟨lines', ?_, hcontent⟩
    rw [readListing, tokens, terminated_listingSource, hscan]
    exact hread

/-! ### Written listings within the limits -/

theorem solid_separatedSpellings (os : List OperandText) :
    ∀ spelling ∈ separatedSpellings os, spelling.1 ≠ .lineEnd := by
  cases os with
  | nil => exact nofun
  | cons o os =>
    intro spelling h
    rcases List.mem_append.mp h with h | h
    · exact o.solid_spellings spelling h
    · obtain ⟨o', -, h⟩ := List.mem_flatMap.mp h
      rcases List.mem_cons.mp h with rfl | h
      · decide
      · exact o'.solid_spellings spelling h

theorem listingSource_not_crowded (h : ∀ line ∈ lines, line.Conforms) :
    ¬ Crowded (tokenKinds (listingSource lines)) := by
  cases lines with
  | nil => exact fun hcrowded => absurd hcrowded.le_length (by decide +kernel)
  | cons line lines =>
    rw [tokenKinds_of_spells (terminated_listingSource line lines ▸ Spells.lines h),
      List.map_flatMap]
    refine not_crowded_flatMap (fun line => ?_) _
    cases line with
    | label position name =>
      have hcolon : TokenKind.colon ≠ .lineEnd := by decide
      exact ⟨[.colon], rfl, List.forall_mem_singleton.mpr hcolon⟩
    | statement s =>
      exact ⟨(separatedSpellings s.content.operands).map Prod.fst,
        by simp [Line.content, LineText.spellings],
        List.forall_mem_map.mpr (solid_separatedSpellings _)⟩

/-- Lines that say the same have the same numbers of operands. -/
theorem exists_statement_of_content (hcontent : lines'.map Line.content = lines.map Line.content)
    {s : Statement} (hs : .statement s ∈ lines) :
    ∃ s', .statement s' ∈ lines' ∧ s'.operands.length = s.operands.length := by
  have hmem : (Line.statement s).content ∈ lines'.map Line.content :=
    hcontent ▸ List.mem_map_of_mem hs
  obtain ⟨line', hline', htext⟩ := List.mem_map.mp hmem
  cases line' with
  | label => cases htext
  | statement s' =>
    have hoperands := congrArg StatementText.operands (LineText.statement.inj htext)
    exact ⟨s', hline', by simpa [Statement.content] using congrArg List.length hoperands⟩

/-- **A written listing is accepted if it has neither too many lines nor a line with too many
operands.** -/
theorem parse_listingSource (h : ∀ line ∈ lines, line.Conforms)
    (read : readListing (listingSource lines) = .ok lines')
    (hcontent : lines'.map Line.content = lines.map Line.content) :
    parse (listingSource lines) = .ok lines' ↔
      lines.length < repetitionLimit ∧
        ∀ s, .statement s ∈ lines → s.operands.length < repetitionLimit := by
  have hlength : lines'.length = lines.length := by simpa using congrArg List.length hcontent
  rw [parse_eq_ok, and_iff_right read]
  constructor
  · intro hnone
    refine ⟨hlength ▸ Nat.not_le.mp (hnone .lines), fun s hs => ?_⟩
    obtain ⟨s', hs', hoperands⟩ := exists_statement_of_content hcontent hs
    exact Nat.not_le.mp fun hmany => hnone .operands ⟨s', hs', hoperands.symm ▸ hmany⟩
  · rintro ⟨hlines, hfew⟩ what hexcess
    cases what with
    | lineEnds => exact listingSource_not_crowded h hexcess
    | lines => exact Nat.not_lt.mpr hexcess (hlength.symm ▸ hlines)
    | operands =>
      obtain ⟨s', hs', hmany⟩ := hexcess
      obtain ⟨s, hs, hoperands⟩ := exists_statement_of_content hcontent.symm hs'
      exact Nat.not_lt.mpr hmany (hoperands ▸ hfew s hs)

end Listings

/-- **Reading is faithful and reaches every listing.** The tokens of the lines that are read are
those of the text, but for the ones that carry no meaning; and every listing whose names, registers
and numbers follow their patterns is read from the text it is written as, wherever its lines
stand. `parse` does the same as long as nothing is repeated too often. -/
theorem reading_faithful :
    (∀ {source : String} {lines : List Line}, readListing source = .ok lines →
      ∃ ts, tokens source = .ok ts ∧
        (ts.filter fun t => t.kind.isContent).map Token.spelling = lines.flatMap Line.spellings ∧
        (ts.filter fun t => t.kind.isContent).map (·.text) = lines.flatMap Line.tokenTexts) ∧
    (∀ {lines : List Line}, (∀ line ∈ lines, line.Conforms) →
      ∃ lines', readListing (listingSource lines) = .ok lines' ∧
        lines'.map Line.content = lines.map Line.content ∧
        (parse (listingSource lines) = .ok lines' ↔
          lines.length < repetitionLimit ∧
            ∀ s, .statement s ∈ lines → s.operands.length < repetitionLimit)) ∧
    ∀ {source : String} {lines : List Line}, parse source = .ok lines ↔
      readListing source = .ok lines ∧ ∀ what, ¬ Excessive source lines what := by
  refine ⟨fun {source lines} h => ?_, fun {lines} h => ?_, parse_eq_ok⟩
  · obtain ⟨ts, hts, hspellings⟩ := spellings_readListing h
    refine ⟨ts, hts, hspellings, ?_⟩
    calc
      _ = (contentOf ts).map (·.2) := by rw [contentOf, List.map_map]; rfl
      _ = (lines.flatMap Line.spellings).map (·.2) := by rw [hspellings]
      _ = lines.flatMap Line.tokenTexts := by simp only [List.map_flatMap, map_snd_spellings]
  · obtain ⟨lines', hread, hcontent⟩ := readListing_listingSource h
    exact ⟨lines', hread, hcontent, parse_listingSource h hread hcontent⟩

/-- Commas where they are allowed, a comment and a line end that is missing. -/
def mixedSource : String :=
  "a: lw $t1 5, ($sp), ; both\n\tb a"

/-- A number in front of an address without an offset, which only a comma keeps apart. -/
def mixedLines : List Line :=
  [.label {} "a",
    .statement ⟨{}, "lw", [⟨{}, .register "$t1"⟩, ⟨{}, .number "5"⟩, ⟨{}, .address none "$sp"⟩]⟩,
    .statement ⟨{}, "b", [⟨{}, .name "a"⟩]⟩]

theorem conforms_mixedLines : ∀ line ∈ mixedLines, line.Conforms := by
  simp only [mixedLines, Line.Conforms, OperandText.Conforms, List.forall_mem_cons]
  refine ⟨?_, ⟨?_, ?_, ?_, ?_, nofun⟩, ⟨?_, ?_, nofun⟩, nofun⟩
  · show Pattern .name ['a']
    exact .name rfl nofun
  · show Pattern .name ['l', 'w']
    exact .name rfl (List.forall_mem_singleton.mpr rfl)
  · show Pattern .register ['$', 't', '1']
    exact .register rfl (List.forall_mem_singleton.mpr rfl)
  · show Pattern .number ['5']
    exact .unsigned (by decide) (List.forall_mem_singleton.mpr rfl)
  · show Pattern .register ['$', 's', 'p']
    exact .register rfl (List.forall_mem_singleton.mpr rfl)
  · show Pattern .name ['b']
    exact .name rfl nofun
  · show Pattern .name ['a']
    exact .name rfl nofun

/-- Both ways at once: the text is read without a loss, and the listing is read from what is written
for it. -/
theorem reading_faithful_mixed :
    (∃ lines ts, readListing mixedSource = .ok lines ∧ tokens mixedSource = .ok ts ∧
      (ts.filter fun t => t.kind.isContent).map Token.spelling = lines.flatMap Line.spellings ∧
      (ts.filter fun t => t.kind.isContent).map (·.text) = lines.flatMap Line.tokenTexts ∧
      lines.flatMap Line.tokenTexts = ["a", ":", "lw", "$t1", "5", "(", "$sp", ")", "b", "a"]) ∧
    (∀ line ∈ mixedLines, line.Conforms) ∧
    ∃ lines', readListing (listingSource mixedLines) = .ok lines' ∧
      lines'.map Line.content = mixedLines.map Line.content ∧
      parse (listingSource mixedLines) = .ok lines' := by
  have hlines : ((readListing mixedSource).toOption.map fun lines =>
      lines.flatMap Line.tokenTexts) =
      some ["a", ":", "lw", "$t1", "5", "(", "$sp", ")", "b", "a"] := by decide +kernel
  obtain ⟨lines, hread, htexts⟩ := Option.map_eq_some_iff.mp hlines
  rw [toOption_eq_some] at hread
  obtain ⟨ts, hts, hspellings, hcontent⟩ := reading_faithful.1 hread
  obtain ⟨lines', hwritten, hsame, hparse⟩ := reading_faithful.2.1 conforms_mixedLines
  have hfew : ∀ s, .statement s ∈ mixedLines → s.operands.length < repetitionLimit := by
    simp [mixedLines, repetitionLimit]
  exact ⟨⟨lines, ts, hread, hts, hspellings, hcontent, htexts⟩, conforms_mixedLines, lines',
    hwritten, hsame, hparse.mpr ⟨by decide, hfew⟩⟩

end RegisterMachine.Assembly
