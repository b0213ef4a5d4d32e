import RegisterMachine.Assembly.Token

/-!
# Texts made of tokens

`Lexes` gives the rules by which the token at the start of a text is found. A token that fills a
whole text is also the first token of a longer one, if what follows cannot belong to it. A text is
thus cut into tokens piece by piece, from its end to its start. Only the kinds and the texts of the
significant tokens are kept: places depend on what stands before.
-/

set_option autoImplicit false

namespace RegisterMachine.Assembly

/-! ### The token at the start -/

/-- The kinds of tokens, each with the characters that it can start with and what it takes of the
text. No character starts tokens of two kinds, so the order of the rules does not matter. -/
inductive Lexes : List Char → TokenKind → List Char → Prop
  | comment {c : Char} {rest : List Char} (start : c = ';' ∨ c = '#') :
      Lexes (c :: rest) .comment (c :: rest.takeWhile (· ≠ '\n'))
  | lineEnd {rest : List Char} : Lexes ('\n' :: rest) .lineEnd ['\n']
  | blank {c : Char} {rest : List Char} (start : isBlank c = true) :
      Lexes (c :: rest) .blank (c :: rest.takeWhile isBlank)
  | register {c : Char} {rest : List Char} (letter : c.isAlpha = true) :
      Lexes ('$' :: c :: rest) .register ('$' :: c :: rest.takeWhile Char.isAlphanum)
  | digits {c : Char} {rest : List Char} (start : c.isDigit = true) :
      Lexes (c :: rest) .number (c :: rest.takeWhile Char.isDigit)
  | signed {c : Char} {rest : List Char} (start : c = '-' ∨ c = '+')
      (digits : rest.takeWhile Char.isDigit ≠ []) :
      Lexes (c :: rest) .number (c :: rest.takeWhile Char.isDigit)
  | name {c : Char} {rest : List Char} (start : isNameStart c = true) :
      Lexes (c :: rest) .name (c :: rest.takeWhile isNameChar)
  | punctuation {c : Char} {rest : List Char} {kind : TokenKind}
      (start : punctuation? c = some kind) : Lexes (c :: rest) kind [c]

section Lexes

variable {cs text : List Char} {kind : TokenKind}

theorem lexes_of_register? (h : register? cs = some text) : Lexes cs .register text := by
  unfold register? at h
  split at h
  · split at h
    · next letter =>
      obtain rfl := Option.some.inj h
      exact .register letter
    · cases h
  · cases h

theorem lexes_of_number? (h : number? cs = some text) : Lexes cs .number text := by
  cases cs with
  | nil => cases h
  | cons c rest =>
    rw [number?] at h
    split at h
    · next start =>
      obtain rfl := Option.some.inj h
      exact .digits start
    · split at h
      · next start =>
        dsimp only at h
        split at h
        · cases h
        · next digits =>
          obtain rfl := Option.some.inj h
          exact .signed (by simpa using start) (by simpa using digits)
      · cases h

/-- Every lexeme follows one of the rules. -/
theorem lexes_of_lexeme? (h : lexeme? cs = some (kind, text)) : Lexes cs kind text := by
  cases cs with
  | nil => cases h
  | cons c rest =>
    rw [lexeme?] at h
    split at h
    · next start =>
      obtain ⟨rfl, rfl⟩ := Prod.mk.inj (Option.some.inj h)
      exact .comment (by simpa using start)
    split at h
    · next start =>
      obtain ⟨rfl, rfl⟩ := Prod.mk.inj (Option.some.inj h)
      obtain rfl : c = '\n' := by simpa using start
      exact .lineEnd
    split at h
    · next start =>
      obtain ⟨rfl, rfl⟩ := Prod.mk.inj (Option.some.inj h)
      exact .blank start
    split at h
    · next found =>
      obtain ⟨rfl, rfl⟩ := Prod.mk.inj (Option.some.inj h)
      exact lexes_of_register? found
    split at h
    · next found =>
      obtain ⟨rfl, rfl⟩ := Prod.mk.inj (Option.some.inj h)
      exact lexes_of_number? found
    split at h
    · next start =>
      obtain ⟨rfl, rfl⟩ := Prod.mk.inj (Option.some.inj h)
      exact .name start
    · obtain ⟨kind, start, hk⟩ := Option.map_eq_some_iff.mp h
      obtain ⟨rfl, rfl⟩ := Prod.mk.inj hk
      exact .punctuation start

theorem not_isDigit_of_isAlpha {c : Char} (h : c.isAlpha = true) : c.isDigit = false := by
  refine Bool.eq_false_iff.mpr fun hd => ?_
  have hnine : c.val ≤ '9'.val := of_decide_eq_true ((Bool.and_eq_true_iff.mp hd).2)
  rcases Bool.or_eq_true_iff.mp h with hupper | hlower
  · have hletter : 'A'.val ≤ c.val := (of_decide_eq_true hupper).1
    exact absurd (UInt32.le_trans hletter hnine) (by decide)
  · have hletter : 'a'.val ≤ c.val := of_decide_eq_true ((Bool.and_eq_true_iff.mp hlower).1)
    exact absurd (UInt32.le_trans hletter hnine) (by decide)

theorem not_isDigit_of_isNameStart {c : Char} (h : isNameStart c = true) : c.isDigit = false := by
  simp only [isNameStart, Bool.or_eq_true, beq_iff_eq] at h
  rcases h with (halpha | rfl) | rfl
  · exact not_isDigit_of_isAlpha halpha
  · rfl
  · rfl

/-- A character of a class that starts no comment, blank or register is left to the later rules. -/
theorem passes_first_rules {p : Char → Bool} {c : Char} (hc : p c = true)
    (hp : [';', '#', '\n', ' ', '\t', '\r', '$'].any p = false) (rest : List Char) :
    (c == ';' || c == '#') = false ∧ (c == '\n') = false ∧ isBlank c = false ∧
      register? (c :: rest) = none := by
  have hother : ∀ d ∈ [';', '#', '\n', ' ', '\t', '\r', '$'], c ≠ d := by
    rintro d hd rfl
    exact List.any_eq_false.mp hp c hd hc
  simp only [List.forall_mem_cons] at hother
  obtain ⟨hsemicolon, hhash, hline, hblank, htab, hreturn, hdollar, -⟩ := hother
  have hregister : register? (c :: rest) = none := by
    unfold register?
    split <;> simp_all
  simp [isBlank, hregister, hsemicolon, hhash, hline, hblank, htab, hreturn]

theorem lexeme?_of_lexes (h : Lexes cs kind text) : lexeme? cs = some (kind, text) := by
  cases h with
  | comment start => rcases start with rfl | rfl <;> rfl
  | lineEnd => rfl
  | blank start =>
    simp only [isBlank, Bool.or_eq_true, beq_iff_eq] at start
    rcases start with (rfl | rfl) | rfl <;> rfl
  | register letter => simp [lexeme?, isBlank, register?, letter]
  | @digits c rest start =>
    obtain ⟨hcomment, hline, hblank, hregister⟩ := passes_first_rules start rfl rest
    simp [lexeme?, hcomment, hline, hblank, hregister, number?, start]
  | signed start digits =>
    rcases start with rfl | rfl <;> simp [lexeme?, isBlank, register?, number?, digits]
  | @name c rest start =>
    have hdigit := not_isDigit_of_isNameStart start
    have hsign : (c == '-' || c == '+') = false := by
      refine Bool.eq_false_iff.mpr fun hs => ?_
      rcases (by simpa using hs : c = '-' ∨ c = '+') with rfl | rfl <;> cases start
    obtain ⟨hcomment, hline, hblank, hregister⟩ := passes_first_rules start rfl rest
    simp [lexeme?, hcomment, hline, hblank, hregister, number?, hdigit, hsign, start]
  | punctuation start =>
    unfold punctuation? at start
    split at start <;> first | (obtain rfl := Option.some.inj start; rfl) | cases start

end Lexes

/-! ### Tokens in front of other text -/

/-- No name, number or register goes on into this text. -/
def Stops (rest : List Char) : Prop :=
  ∀ c ∈ rest.head?, isNameChar c = false

theorem takeWhile_append_stop {p : Char → Bool} {cs rest : List Char} (hcs : cs.takeWhile p = cs)
    (hrest : ∀ c ∈ rest.head?, p c = false) : (cs ++ rest).takeWhile p = cs := by
  induction cs with
  | nil =>
    cases rest with
    | nil => rfl
    | cons c rest => simp [hrest c rfl]
  | cons c cs ih =>
    by_cases hc : p c = true
    · simp_all
    · simp [hc] at hcs

theorem Stops.takeWhile_append {rest : List Char} (h : Stops rest) {p : Char → Bool}
    (hp : ∀ c, p c = true → isNameChar c = true) {cs : List Char} (hcs : cs.takeWhile p = cs) :
    (cs ++ rest).takeWhile p = cs := by
  refine takeWhile_append_stop hcs fun c hc => Bool.eq_false_iff.mpr fun hpc => ?_
  have hname := h c hc
  rw [hp c hpc] at hname
  cases hname

theorem isNameChar_of_isAlphanum (c : Char) (h : c.isAlphanum = true) : isNameChar c = true := by
  simp [isNameChar, h]

theorem isNameChar_of_isDigit (c : Char) (h : c.isDigit = true) : isNameChar c = true :=
  isNameChar_of_isAlphanum c (by simp [Char.isAlphanum, h])

/-- **A token is not changed by a text that stops it.** Comments and blanks have stops of their
own. -/
theorem lexeme?_append {cs rest : List Char} {kind : TokenKind} (h : Stops rest)
    (hcs : lexeme? cs = some (kind, cs)) (hcomment : kind ≠ .comment) (hblank : kind ≠ .blank) :
    lexeme? (cs ++ rest) = some (kind, cs) := by
  obtain ⟨text, htext, hlexes⟩ : ∃ text, text = cs ∧ Lexes cs kind text :=
    ⟨cs, rfl, lexes_of_lexeme? hcs⟩
  cases hlexes with
  | comment => exact absurd rfl hcomment
  | blank => exact absurd rfl hblank
  | lineEnd => exact htext ▸ rfl
  | @register c tail letter =>
    have htail : tail.takeWhile Char.isAlphanum = tail := by simpa using htext
    have hnext : Lexes ('$' :: c :: (tail ++ rest)) .register _ := .register letter
    rw [h.takeWhile_append isNameChar_of_isAlphanum htail] at hnext
    exact lexeme?_of_lexes hnext
  | @digits c tail start =>
    have htail : tail.takeWhile Char.isDigit = tail := by simpa using htext
    have hnext : Lexes (c :: (tail ++ rest)) .number _ := .digits start
    rw [h.takeWhile_append isNameChar_of_isDigit htail] at hnext
    exact lexeme?_of_lexes hnext
  | @signed c tail start digits =>
    have htail : tail.takeWhile Char.isDigit = tail := by simpa using htext
    have happend := h.takeWhile_append isNameChar_of_isDigit htail
    have hnext : Lexes (c :: (tail ++ rest)) .number _ :=
      .signed start (by rwa [happend, ← htail])
    rw [happend] at hnext
    exact lexeme?_of_lexes hnext
  | @name c tail start =>
    have htail : tail.takeWhile isNameChar = tail := by simpa using htext
    have hnext : Lexes (c :: (tail ++ rest)) .name _ := .name start
    rw [h.takeWhile_append (fun _ => id) htail] at hnext
    exact lexeme?_of_lexes hnext
  | @punctuation c tail _ start =>
    obtain rfl : tail = [] := by simpa using htext.symm
    exact lexeme?_of_lexes (.punctuation start)

theorem lexeme?_blank {rest : List Char} (h : ∀ c ∈ rest.head?, isBlank c = false) :
    lexeme? (' ' :: rest) = some (.blank, [' ']) := by
  have htail : ([] ++ rest).takeWhile isBlank = [] := takeWhile_append_stop rfl h
  have hlexes : Lexes (' ' :: ([] ++ rest)) .blank _ := .blank rfl
  rw [htail] at hlexes
  exact lexeme?_of_lexes hlexes

/-! ### All tokens -/

/-- What a token says, wherever it stands. -/
def Token.spelling (t : Token) : TokenKind × String :=
  (t.kind, t.text)

/-- The significant tokens of a text have these kinds and texts. -/
def Spells (text : List Char) (spellings : List (TokenKind × String)) : Prop :=
  ∀ p, ∃ tokens, scan 0 p text = .ok tokens ∧
    (tokens.filter Token.isSignificant).map Token.spelling = spellings

/-- The characters of a known token are passed over. -/
theorem scan_append (cs rest : List Char) (p : Position) :
    scan cs.length p (cs ++ rest) = scan 0 (cs.foldl Position.advance p) rest := by
  induction cs generalizing p with
  | nil => rfl
  | cons c cs ih => exact ih (p.advance c)

namespace Spells

variable {text rest : List Char} {kind : TokenKind} {spellings : List (TokenKind × String)}

theorem nil : Spells [] [] :=
  fun _ => ⟨[], rfl, rfl⟩

/-- A text starts with its first token and goes on with the others. -/
theorem scan_cons (hfirst : lexeme? (text ++ rest) = some (kind, text)) (hne : text ≠ [])
    (p : Position) {tokens : List Token}
    (hrest : scan 0 (text.foldl Position.advance p) rest = .ok tokens) :
    scan 0 p (text ++ rest) = .ok (⟨kind, String.ofList text, p⟩ :: tokens) := by
  cases text with
  | nil => exact absurd rfl hne
  | cons c cs =>
    rw [List.cons_append] at hfirst ⊢
    rw [scan, hfirst]
    simp only [List.length_cons, Nat.add_one_sub_one, scan_append]
    rw [List.foldl_cons] at hrest
    rw [hrest]

theorem skip (h : Spells rest spellings) (hfirst : lexeme? (text ++ rest) = some (.blank, text))
    (hne : text ≠ []) : Spells (text ++ rest) spellings := by
  intro p
  obtain ⟨tokens, hscan, hspell⟩ := h (text.foldl Position.advance p)
  exact ⟨_, scan_cons hfirst hne p hscan, hspell⟩

theorem cons (h : Spells rest spellings) (hfirst : lexeme? (text ++ rest) = some (kind, text))
    (hne : text ≠ []) (hcomment : kind ≠ .comment) (hblank : kind ≠ .blank) :
    Spells (text ++ rest) ((kind, String.ofList text) :: spellings) := by
  intro p
  obtain ⟨tokens, hscan, hspell⟩ := h (text.foldl Position.advance p)
  refine ⟨_, scan_cons hfirst hne p hscan, ?_⟩
  rw [List.filter_cons_of_pos (by simp [Token.isSignificant, hcomment, hblank]), List.map_cons,
    hspell]
  rfl

/-- A token in front of what stops it. -/
theorem token (h : Spells rest spellings) (hstops : Stops rest)
    (htext : lexeme? text = some (kind, text)) (hcomment : kind ≠ .comment)
    (hblank : kind ≠ .blank) : Spells (text ++ rest) ((kind, String.ofList text) :: spellings) := by
  refine h.cons (lexeme?_append hstops htext hcomment hblank) ?_ hcomment hblank
  rintro rfl
  cases htext

end Spells

end RegisterMachine.Assembly
