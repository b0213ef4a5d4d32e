import RegisterMachine.Proofs.Assembly.Reading
import RegisterMachine.Proofs.Assembly.Tiling

/-!
# Edits of the layout

A layout edit takes out a comment, changes a run of blanks, puts in an empty line or makes a comma a
blank. It may be made anywhere in a text, even inside a comment. The significant tokens are those of
the text before, but for commas that are missing and for line ends that stand where a line starts.
What follows a token may be exchanged if it stops the token before and after; of what follows a
comment only the part from the next line end on matters.
-/

set_option autoImplicit false

namespace RegisterMachine.Assembly

/-! ### The first token and the others -/

section Spells

variable {p : Position} {kind : TokenKind} {c : Char} {cs text rest : List Char} {ts : List Token}
  {spellings : List (TokenKind × String)}

/-- What a token adds to the significant tokens of a text. -/
def significant (kind : TokenKind) (text : List Char) : List (TokenKind × String) :=
  if kind = .blank ∨ kind = .comment then [] else [(kind, String.ofList text)]

theorem spelling_filter_cons :
    ((⟨kind, String.ofList text, p⟩ :: ts).filter Token.isSignificant).map Token.spelling =
      significant kind text ++ (ts.filter Token.isSignificant).map Token.spelling := by
  unfold significant
  split
  · next h => rcases h with rfl | rfl <;> rfl
  · next h =>
    rw [not_or] at h
    simp [Token.isSignificant, h, Token.spelling]

theorem Spells.first (h : Spells rest spellings) (first : Lexes (text ++ rest) kind text) :
    Spells (text ++ rest) (significant kind text ++ spellings) := by
  intro p
  obtain ⟨tokens, hscan, rfl⟩ := h (text.foldl Position.advance p)
  refine ⟨⟨kind, String.ofList text, p⟩ :: tokens, ?_, spelling_filter_cons⟩
  rw [scan_token first, hscan]
  rfl

theorem spells_of_tiles (h : Tiles p cs ts) :
    Spells cs ((ts.filter Token.isSignificant).map Token.spelling) := by
  induction h with
  | nil => exact .nil
  | cons first others ih =>
    rw [spelling_filter_cons]
    exact ih.first first

/-- A text that says something is empty or starts with a token. -/
theorem Spells.uncons (h : Spells cs spellings) :
    cs = [] ∧ spellings = [] ∨
      ∃ kind text rest others, cs = text ++ rest ∧ Lexes (text ++ rest) kind text ∧
        spellings = significant kind text ++ others ∧ Spells rest others := by
  obtain ⟨tokens, hscan, rfl⟩ := h {}
  cases tiles_of_scan hscan with
  | nil => exact .inl ⟨rfl, rfl⟩
  | cons first others =>
    exact .inr ⟨_, _, _, _, rfl, first, spelling_filter_cons, spells_of_tiles others⟩

/-- **The first token is split off what a text says.** -/
theorem spells_append_iff (first : Lexes (text ++ rest) kind text) :
    Spells (text ++ rest) spellings ↔
      ∃ others, spellings = significant kind text ++ others ∧ Spells rest others := by
  constructor
  · intro h
    rcases h.uncons with ⟨hnil, -⟩ | ⟨kind', text', rest', others, hcs, first', rfl, hothers⟩
    · exact absurd (List.append_eq_nil_iff.mp hnil).1 first.ne_nil
    · rw [← hcs] at first'
      have hsame := (lexeme?_of_lexes first).symm.trans (lexeme?_of_lexes first')
      obtain ⟨rfl, rfl⟩ := Prod.mk.inj (Option.some.inj hsame)
      obtain rfl := List.append_cancel_left hcs
      exact ⟨others, rfl, hothers⟩
  · rintro ⟨others, rfl, hothers⟩
    exact hothers.first first

/-- A first token that is not significant is passed over. -/
theorem spells_run_iff {q : Char → Bool} (hkind : kind = .blank ∨ kind = .comment)
    (first : Lexes (c :: rest) kind (c :: rest.takeWhile q)) :
    Spells (c :: rest) spellings ↔ Spells (rest.dropWhile q) spellings := by
  have hsplit : c :: rest = (c :: rest.takeWhile q) ++ rest.dropWhile q := by
    rw [List.cons_append, List.takeWhile_append_dropWhile]
  rw [hsplit] at first ⊢
  rw [spells_append_iff first]
  simp [significant, hkind]

theorem spells_comment_iff (start : c = ';' ∨ c = '#') :
    Spells (c :: rest) spellings ↔ Spells (rest.dropWhile (· ≠ '\n')) spellings :=
  spells_run_iff (.inr rfl) (.comment start)

theorem spells_blanks_iff (start : isBlank c = true) :
    Spells (c :: rest) spellings ↔ Spells (rest.dropWhile isBlank) spellings :=
  spells_run_iff (.inl rfl) (.blank start)

/-- A blank is passed over, whatever it stands before. -/
theorem spells_blank_iff (start : isBlank c = true) :
    Spells (c :: rest) spellings ↔ Spells rest spellings := by
  rw [spells_blanks_iff start]
  cases rest with
  | nil => rfl
  | cons d rest =>
    by_cases hd : isBlank d = true
    · rw [List.dropWhile_cons_of_pos hd, spells_blanks_iff hd]
    · rw [List.dropWhile_cons_of_neg hd]

theorem spells_blank_append_iff {blanks : List Char} (all : ∀ c ∈ blanks, isBlank c = true) :
    Spells (blanks ++ rest) spellings ↔ Spells rest spellings := by
  induction blanks with
  | nil => rfl
  | cons c blanks ih =>
    obtain ⟨hc, hblanks⟩ := List.forall_mem_cons.mp all
    rw [List.cons_append, spells_blank_iff hc, ih hblanks]

theorem spells_lineEnd_iff :
    Spells ('\n' :: rest) spellings ↔
      ∃ others, spellings = (.lineEnd, "\n") :: others ∧ Spells rest others :=
  spells_append_iff (show Lexes (['\n'] ++ rest) .lineEnd ['\n'] from .lineEnd)

theorem spells_comma_iff :
    Spells (',' :: rest) spellings ↔
      ∃ others, spellings = (.comma, ",") :: others ∧ Spells rest others :=
  spells_append_iff (show Lexes ([','] ++ rest) .comma [','] from .punctuation rfl)

end Spells

/-! ### The text behind a token -/

section Stops

variable {kind : TokenKind} {c : Char} {tail text rest rest' : List Char}

theorem Stops.takeWhile_eq (h : Stops rest) {q : Char → Bool}
    (hq : ∀ c, q c = true → isNameChar c = true) (cs : List Char) :
    (cs ++ rest).takeWhile q = cs.takeWhile q := by
  induction cs with
  | nil =>
    cases rest with
    | nil => rfl
    | cons c rest =>
      have hc : ¬ q c = true := fun hqc => by
        have hname := h c rfl
        rw [hq c hqc] at hname
        cases hname
      exact List.takeWhile_cons_of_neg hc
  | cons c cs ih =>
    rw [List.cons_append, List.takeWhile_cons, List.takeWhile_cons, ih]

/-- **What follows a token may be exchanged**, if it stops the token before and after. -/
theorem Lexes.exchange (h : Lexes (c :: (tail ++ rest)) kind text) (stops : Stops rest)
    (stops' : Stops rest') (hcomment : ¬ (c = ';' ∨ c = '#')) (hblank : ¬ isBlank c = true) :
    ∃ behind, c :: tail = text ++ behind ∧ Lexes (c :: (tail ++ rest')) kind text := by
  have hrun (q : Char → Bool) (cs : List Char) : cs = cs.takeWhile q ++ cs.dropWhile q :=
    List.takeWhile_append_dropWhile.symm
  generalize hcs : c :: (tail ++ rest) = cs at h
  cases h with
  | comment start => exact absurd ((List.cons.inj hcs).1 ▸ start) hcomment
  | blank start => exact absurd ((List.cons.inj hcs).1 ▸ start) hblank
  | lineEnd =>
    obtain ⟨rfl, -⟩ := List.cons.inj hcs
    exact ⟨tail, rfl, .lineEnd⟩
  | @register d further letter =>
    obtain ⟨rfl, htail⟩ := List.cons.inj hcs
    cases tail with
    | nil =>
      -- The letter would be the first character of what stops the token.
      rw [List.nil_append] at htail
      have hname := stops d (by rw [htail]; rfl)
      rw [isNameChar_of_isAlphanum d (by simp [Char.isAlphanum, letter])] at hname
      cases hname
    | cons e tail =>
      rw [List.cons_append] at htail
      obtain ⟨rfl, rfl⟩ := List.cons.inj htail
      rw [stops.takeWhile_eq isNameChar_of_isAlphanum]
      refine ⟨tail.dropWhile Char.isAlphanum, congrArg ('$' :: e :: ·) (hrun _ tail), ?_⟩
      rw [← stops'.takeWhile_eq isNameChar_of_isAlphanum]
      exact .register letter
  | digits start =>
    obtain ⟨rfl, rfl⟩ := List.cons.inj hcs
    rw [stops.takeWhile_eq isNameChar_of_isDigit]
    refine ⟨tail.dropWhile Char.isDigit, congrArg (c :: ·) (hrun _ tail), ?_⟩
    rw [← stops'.takeWhile_eq isNameChar_of_isDigit]
    exact .digits start
  | signed start digits =>
    obtain ⟨rfl, rfl⟩ := List.cons.inj hcs
    rw [stops.takeWhile_eq isNameChar_of_isDigit] at digits ⊢
    refine ⟨tail.dropWhile Char.isDigit, congrArg (c :: ·) (hrun _ tail), ?_⟩
    rw [← stops'.takeWhile_eq isNameChar_of_isDigit] at digits ⊢
    exact .signed start digits
  | name start =>
    obtain ⟨rfl, rfl⟩ := List.cons.inj hcs
    rw [stops.takeWhile_eq fun _ => id]
    refine ⟨tail.dropWhile isNameChar, congrArg (c :: ·) (hrun _ tail), ?_⟩
    rw [← stops'.takeWhile_eq fun _ => id]
    exact .name start
  | punctuation start =>
    obtain ⟨rfl, -⟩ := List.cons.inj hcs
    exact ⟨tail, rfl, .punctuation start⟩

end Stops

/-! ### Looser tokens -/

/-- The second tokens are the first without some of the commas, and with more or fewer line ends in
places where a line starts. The flag tells whether one starts here. -/
inductive Sparser : Bool → List (TokenKind × String) → List (TokenKind × String) → Prop
  | nil {starts : Bool} : Sparser starts [] []
  | keep {starts : Bool} {x : TokenKind × String} {xs ys : List (TokenKind × String)}
      (others : Sparser (x.1 = .lineEnd) xs ys) : Sparser starts (x :: xs) (x :: ys)
  | comma {starts : Bool} {text : String} {xs ys : List (TokenKind × String)}
      (others : Sparser false xs ys) : Sparser starts ((.comma, text) :: xs) ys
  | added {text : String} {xs ys : List (TokenKind × String)} (others : Sparser true xs ys) :
      Sparser true xs ((.lineEnd, text) :: ys)
  | dropped {text : String} {xs ys : List (TokenKind × String)} (others : Sparser true xs ys) :
      Sparser true ((.lineEnd, text) :: xs) ys

theorem Sparser.refl (starts : Bool) (xs : List (TokenKind × String)) : Sparser starts xs xs := by
  induction xs generalizing starts with
  | nil => exact .nil
  | cons x xs ih => exact .keep (ih _)

theorem Sparser.atStart {starts : Bool} {xs ys : List (TokenKind × String)}
    (h : Sparser starts xs ys) : Sparser true xs ys := by
  cases h with
  | nil => exact .nil
  | keep others => exact .keep others
  | comma others => exact .comma others
  | added others => exact .added others
  | dropped others => exact .dropped others

/-- The second text says what the first says, in looser tokens. -/
def Loosens (starts : Bool) (cs cs' : List Char) : Prop :=
  ∀ spellings, Spells cs spellings → ∃ spellings', Spells cs' spellings' ∧
    Sparser starts spellings spellings'

section Loosens

variable {starts : Bool} {cs cs' rest rest' : List Char}

theorem Loosens.refl (starts : Bool) (cs : List Char) : Loosens starts cs cs :=
  fun spellings h => ⟨spellings, h, .refl starts spellings⟩

theorem Loosens.of_iff (h : ∀ spellings, Spells cs spellings ↔ Spells cs' spellings) :
    Loosens starts cs cs' :=
  fun spellings hcs => ⟨spellings, (h spellings).mp hcs, .refl starts spellings⟩

theorem Loosens.atStart (h : Loosens starts cs cs') : Loosens true cs cs' := by
  intro spellings hcs
  obtain ⟨spellings', hcs', hsparser⟩ := h spellings hcs
  exact ⟨spellings', hcs', hsparser.atStart⟩

theorem sparser_significant {kind : TokenKind} {text : List Char}
    {xs ys : List (TokenKind × String)} (h : Sparser false xs ys) :
    Sparser false (significant kind text ++ xs) (significant kind text ++ ys) := by
  unfold significant
  split
  · exact h
  · refine .keep ?_
    by_cases hkind : kind = .lineEnd
    · simpa [hkind] using h.atStart
    · simpa [hkind] using h

/-- **An edit stands anywhere in a text**, if the edited part stops a token before and after. The
text in front may end inside a comment, and then only the part from the next line end on is read. -/
theorem Loosens.within (stops : Stops rest) (stops' : Stops rest') (h : Loosens false rest rest')
    (ends : Loosens false (rest.dropWhile (· ≠ '\n')) (rest'.dropWhile (· ≠ '\n')))
    (front : List Char) : Loosens false (front ++ rest) (front ++ rest') := by
  -- Each token of the text in front may be of any length.
  induction hn : front.length using Nat.strongRecOn generalizing front with
  | ind n ih =>
    intro spellings hspells
    cases front with
    | nil => exact h spellings hspells
    | cons c tail =>
      rw [List.cons_append] at hspells ⊢
      by_cases hcomment : c = ';' ∨ c = '#'
      · rw [spells_comment_iff hcomment, List.dropWhile_append] at hspells
        simp only [spells_comment_iff hcomment, List.dropWhile_append]
        split at hspells
        · next hempty =>
          rw [if_pos hempty]
          exact ends _ hspells
        · next hempty =>
          rw [if_neg hempty]
          have hle := (List.dropWhile_sublist (p := (· ≠ '\n')) (l := tail)).length_le
          exact ih _ (by rw [List.length_cons] at hn; omega) _ rfl _ hspells
      by_cases hblank : isBlank c = true
      · rw [spells_blank_iff hblank] at hspells
        simp only [spells_blank_iff hblank]
        exact ih _ (by rw [List.length_cons] at hn; omega) tail rfl _ hspells
      rcases hspells.uncons with ⟨hnil, -⟩ | ⟨kind, text, behind, others, hcs, first, rfl, hothers⟩
      · cases hnil
      rw [← hcs] at first
      obtain ⟨tail', htail, first'⟩ := first.exchange stops stops' hcomment hblank
      rw [← List.cons_append, htail, List.append_assoc] at hcs first'
      obtain rfl := List.append_cancel_left hcs
      have hlength := congrArg List.length htail
      have hpos := List.length_pos_iff.mpr first.ne_nil
      rw [List.length_append, hn] at hlength
      obtain ⟨others', hothers', hsparser⟩ := ih _ (by omega) tail' rfl others hothers
      rw [← List.cons_append, htail, List.append_assoc]
      exact ⟨_, hothers'.first first', sparser_significant hsparser⟩

end Loosens

/-! ### Edits -/

/-- Nothing stands in the line but blanks and perhaps a comment. -/
def IsEmptyLine (line : List Char) : Prop :=
  '\n' ∉ line ∧ ∀ c ∈ (line.dropWhile isBlank).head?, c = ';' ∨ c = '#'

/-- One change of the layout. -/
inductive LayoutEdit : List Char → List Char → Prop
  /-- A comment is taken out, up to the end of its line. -/
  | comment {front body rest : List Char} {c : Char} (start : c = ';' ∨ c = '#')
      (inLine : '\n' ∉ body) (ends : ∀ d ∈ rest.head?, d = '\n') :
      LayoutEdit (front ++ (c :: body ++ rest)) (front ++ rest)
  /-- Blanks take the place of others. -/
  | blanks {front old new rest : List Char} (nonempty : old ≠ []) (all : ∀ c ∈ old, isBlank c = true)
      (nonempty' : new ≠ []) (all' : ∀ c ∈ new, isBlank c = true) :
      LayoutEdit (front ++ (old ++ rest)) (front ++ (new ++ rest))
  /-- An empty line is put in front of a line. -/
  | line {front line rest : List Char} (starts : ∀ c ∈ front.getLast?, c = '\n')
      (empty : IsEmptyLine line) : LayoutEdit (front ++ rest) (front ++ (line ++ '\n' :: rest))
  /-- A blank takes the place of a comma. -/
  | comma {front rest : List Char} : LayoutEdit (front ++ ',' :: rest) (front ++ ' ' :: rest)

section Edits

variable {c : Char} {cs cs' line body run rest : List Char}
  {spellings : List (TokenKind × String)}

theorem dropWhile_line (inLine : '\n' ∉ line) (rest : List Char) :
    (line ++ rest).dropWhile (· ≠ '\n') = rest.dropWhile (· ≠ '\n') := by
  refine List.dropWhile_append_of_pos fun c hc => decide_eq_true ?_
  rintro rfl
  exact inLine hc

theorem spells_note_iff (start : c = ';' ∨ c = '#') (inLine : '\n' ∉ body) :
    Spells (c :: body ++ '\n' :: rest) spellings ↔ Spells ('\n' :: rest) spellings := by
  rw [List.cons_append, spells_comment_iff start, dropWhile_line inLine]
  rfl

theorem spells_emptyLine_iff (h : IsEmptyLine line) :
    Spells (line ++ '\n' :: rest) spellings ↔ Spells ('\n' :: rest) spellings := by
  obtain ⟨inLine, hnote⟩ := h
  have hblanks : ∀ c ∈ line.takeWhile isBlank, isBlank c = true := forall_mem_takeWhile id line
  rw [← List.takeWhile_append_dropWhile (p := isBlank) (l := line), List.append_assoc,
    spells_blank_append_iff hblanks]
  cases hline : line.dropWhile isBlank with
  | nil => rfl
  | cons c body =>
    rw [hline] at hnote
    refine spells_note_iff (hnote c rfl) fun hbody => inLine ?_
    exact (List.dropWhile_sublist isBlank).mem (hline ▸ List.mem_cons_of_mem c hbody)

theorem isNameChar_of_isBlank (h : isBlank c = true) : isNameChar c = false := by
  simp only [isBlank, Bool.or_eq_true, beq_iff_eq] at h
  rcases h with (rfl | rfl) | rfl <;> rfl

theorem Stops.blanks (nonempty : run ≠ []) (all : ∀ c ∈ run, isBlank c = true) :
    Stops (run ++ rest) := by
  obtain ⟨c, tail, rfl⟩ := List.exists_cons_of_ne_nil nonempty
  exact .cons (isNameChar_of_isBlank (all c List.mem_cons_self))

theorem lineEnd_notMem_blanks (all : ∀ c ∈ run, isBlank c = true) : '\n' ∉ run :=
  fun h => absurd (all _ h) (by decide)

/-- An empty line behind a line end. -/
theorem loosens_emptyLine (h : IsEmptyLine line) (front : List Char) :
    Loosens false (front ++ '\n' :: rest) (front ++ '\n' :: (line ++ '\n' :: rest)) := by
  have hends : Loosens false ('\n' :: rest) ('\n' :: (line ++ '\n' :: rest)) := by
    intro spellings hspells
    obtain ⟨others, rfl, hothers⟩ := spells_lineEnd_iff.mp hspells
    have hline := (spells_emptyLine_iff h).mpr hspells
    exact ⟨_, spells_lineEnd_iff.mpr ⟨_, rfl, hline⟩, .keep (.added (.refl true others))⟩
  exact hends.within (.cons (by decide)) (.cons (by decide)) hends front

/-- **A layout edit loosens the tokens of a text.** -/
theorem LayoutEdit.loosens (h : LayoutEdit cs cs') : Loosens true (cs ++ ['\n']) (cs' ++ ['\n']) := by
  cases h with
  | @comment front body rest c start inLine ends =>
    obtain ⟨further, hfurther⟩ : ∃ further, rest ++ ['\n'] = '\n' :: further := by
      cases rest with
      | nil => exact ⟨[], rfl⟩
      | cons d rest =>
        obtain rfl := ends d rfl
        exact ⟨rest ++ ['\n'], rfl⟩
    have hstops : Stops (c :: body ++ '\n' :: further) :=
      .cons (by rcases start with rfl | rfl <;> rfl)
    have hcline : '\n' ∉ c :: body := by
      rw [List.mem_cons, not_or]
      exact ⟨by rcases start with rfl | rfl <;> decide, inLine⟩
    simp only [List.append_assoc, hfurther]
    refine (Loosens.within hstops (.cons rfl)
      (.of_iff fun _ => spells_note_iff start inLine) ?_ front).atStart
    rw [dropWhile_line hcline]
    exact .refl _ _
  | @blanks front old new rest nonempty all nonempty' all' =>
    simp only [List.append_assoc]
    refine (Loosens.within (.blanks nonempty all) (.blanks nonempty' all') (.of_iff fun _ => ?_) ?_
      front).atStart
    · rw [spells_blank_append_iff all, spells_blank_append_iff all']
    · rw [dropWhile_line (lineEnd_notMem_blanks all), dropWhile_line (lineEnd_notMem_blanks all')]
      exact .refl _ _
  | @line front line rest starts empty =>
    simp only [List.append_assoc, List.cons_append]
    rcases List.eq_nil_or_concat front with rfl | ⟨front, c, rfl⟩
    · intro spellings hspells
      have hline := (spells_emptyLine_iff empty).mpr (spells_lineEnd_iff.mpr ⟨_, rfl, hspells⟩)
      exact ⟨_, hline, .added (.refl true spellings)⟩
    · obtain rfl : c = '\n' := starts c (by simp)
      simpa using (loosens_emptyLine empty front).atStart
  | @comma front rest =>
    simp only [List.append_assoc, List.cons_append]
    have hstops : Stops (',' :: (rest ++ ['\n'])) := .cons rfl
    have hstops' : Stops (' ' :: (rest ++ ['\n'])) := .cons rfl
    refine (Loosens.within hstops hstops' ?_ (.refl _ _) front).atStart
    intro spellings hspells
    obtain ⟨others, rfl, hothers⟩ := spells_comma_iff.mp hspells
    exact ⟨others, (spells_blank_iff rfl).mpr hothers, .comma (.refl false others)⟩

theorem terminated_cases (source : String) :
    terminated source = source.toList ++ ['\n'] ∨
      ∃ front, source.toList = front ++ ['\n'] ∧ terminated source = front ++ ['\n'] := by
  unfold terminated
  split
  · next hlast =>
    obtain ⟨front, hfront⟩ := List.getLast?_eq_some_iff.mp hlast
    exact .inr ⟨front, hfront, hfront⟩
  · exact .inl rfl

/-- A line end at the end of a text that may have one already. -/
theorem loosens_terminated (source : String) :
    Loosens true (terminated source) (source.toList ++ ['\n']) := by
  rcases terminated_cases source with hsource | ⟨front, hsource, hterminated⟩
  · exact hsource ▸ .refl _ _
  · rw [hsource, hterminated, List.append_assoc]
    have hempty : IsEmptyLine [] := ⟨List.not_mem_nil, nofun⟩
    exact (loosens_emptyLine hempty front).atStart

theorem terminated_loosens (source : String) :
    Loosens true (source.toList ++ ['\n']) (terminated source) := by
  rcases terminated_cases source with hsource | ⟨front, hsource, hterminated⟩
  · exact hsource ▸ .refl _ _
  · have hends : Loosens false ['\n', '\n'] ['\n'] := by
      intro spellings hspells
      obtain ⟨_, rfl, hsecond⟩ := spells_lineEnd_iff.mp hspells
      obtain ⟨others, rfl, hothers⟩ := spells_lineEnd_iff.mp hsecond
      exact ⟨_, spells_lineEnd_iff.mpr ⟨_, rfl, hothers⟩, .keep (.dropped (.refl true others))⟩
    rw [hsource, hterminated, List.append_assoc]
    exact (hends.within (.cons rfl) (.cons rfl) hends front).atStart

end Edits

end RegisterMachine.Assembly
