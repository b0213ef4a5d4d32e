import Mathlib.Algebra.Group.Nat.Defs
import Mathlib.Algebra.Ring.Int.Defs

/-!
# Chains of checks

Readers, planners and resolvers are chains of steps of which the first refusal counts. A chain
succeeds when all of its steps do.
-/

set_option autoImplicit false

namespace RegisterMachine.Checks

variable {ε ε' α β : Type}

theorem bind_eq_ok {x : Except ε α} {f : α → Except ε β} {b : β} :
    x >>= f = .ok b ↔ ∃ a, x = .ok a ∧ f a = .ok b := by
  cases x with
  | error e => simp [bind, Except.bind]
  | ok a => simp [bind, Except.bind]

theorem bind_eq_error {x : Except ε α} {f : α → Except ε β} {e : ε} :
    x >>= f = .error e ↔ x = .error e ∨ ∃ a, x = .ok a ∧ f a = .error e := by
  cases x with
  | error e => simp [bind, Except.bind]
  | ok a => simp [bind, Except.bind]

theorem toOption_eq_some {x : Except ε α} {a : α} : x.toOption = some a ↔ x = .ok a := by
  cases x <;> simp [Except.toOption]

/-- The refusal, if there is one. -/
def error? : Except ε α → Option ε
  | .error e => some e
  | .ok _ => none

theorem error?_eq_some {x : Except ε α} {e : ε} : error? x = some e ↔ x = .error e := by
  cases x <;> simp [error?]

theorem ok_bind (a : α) (f : α → Except ε β) : (Except.ok a >>= f) = f a := rfl

theorem error_bind (e : ε) (f : α → Except ε β) : (Except.error e >>= f) = .error e := rfl

theorem pure_eq (a : α) : (pure a : Except ε α) = .ok a := rfl

theorem throw_eq (e : ε) : (throw e : Except ε α) = .error e := rfl

theorem mapError_eq_ok {f : ε → ε'} {x : Except ε α} {a : α} :
    x.mapError f = .ok a ↔ x = .ok a := by
  cases x <;> simp [Except.mapError]

theorem mapError_eq_error {f : ε → ε'} {x : Except ε α} {e' : ε'} :
    x.mapError f = .error e' ↔ ∃ e, x = .error e ∧ f e = e' := by
  cases x <;> simp [Except.mapError]

/-! ### Verdicts -/

/-- When a check succeeds, and what it reports when it does not. -/
structure Verdict (x : Except ε α) (accepts : Prop) (reports : ε → Prop) : Prop where
  ok : (∃ a, x = .ok a) ↔ accepts
  error : ∀ e, x = .error e ↔ reports e

namespace Verdict

variable {x : Except ε α} {f : α → Except ε β} {P P' Q : Prop} {R R' S : ε → Prop}

theorem accepted (a : α) : Verdict (.ok a : Except ε α) True fun _ => False :=
  ⟨iff_of_true ⟨a, rfl⟩ trivial, fun _ => iff_of_false nofun id⟩

theorem refused (e : ε) : Verdict (.error e : Except ε α) False fun e' => e = e' :=
  ⟨iff_of_false nofun id, fun _ => by rw [Except.error.injEq]⟩

theorem congr (h : Verdict x P R) (hok : P ↔ P') (herror : ∀ e, R e ↔ R' e) : Verdict x P' R' :=
  ⟨h.ok.trans hok, fun e => (h.error e).trans (herror e)⟩

/-- A second check reports only if the first one succeeds. -/
theorem bind (hx : Verdict x P R) (hf : ∀ a, x = .ok a → Verdict (f a) Q S) :
    Verdict (x >>= f) (P ∧ Q) fun e => R e ∨ P ∧ S e := by
  constructor
  · simp only [bind_eq_ok]
    rw [← hx.ok]
    constructor
    · rintro ⟨b, a, ha, hb⟩
      exact ⟨⟨a, ha⟩, (hf a ha).ok.mp ⟨b, hb⟩⟩
    · rintro ⟨⟨a, ha⟩, hq⟩
      obtain ⟨b, hb⟩ := (hf a ha).ok.mpr hq
      exact ⟨b, a, ha, hb⟩
  · intro e
    rw [bind_eq_error, hx.error, ← hx.ok]
    refine or_congr_right ⟨?_, ?_⟩
    · rintro ⟨a, ha, he⟩
      exact ⟨⟨a, ha⟩, ((hf a ha).error e).mp he⟩
    · rintro ⟨⟨a, ha⟩, hs⟩
      exact ⟨a, ha, ((hf a ha).error e).mpr hs⟩

theorem mapError (h : Verdict x P R) (g : ε → ε') :
    Verdict (x.mapError g) P fun e' => ∃ e, R e ∧ g e = e' := by
  constructor
  · simp only [mapError_eq_ok]
    exact h.ok
  · intro e'
    simp only [mapError_eq_error, h.error]

end Verdict

/-- An element of the list is bad, and those in front of it, which are counted, are all good. -/
def First (good : α → Prop) (bad : Nat → α → Prop) (xs : List α) : Prop :=
  ∃ earlier x later, xs = earlier ++ x :: later ∧ (∀ y ∈ earlier, good y) ∧ bad earlier.length x

theorem not_first_nil {good : α → Prop} {bad : Nat → α → Prop} : ¬ First good bad [] := by
  rintro ⟨earlier, x, later, h, -⟩
  simp at h

theorem first_cons {good : α → Prop} {bad : Nat → α → Prop} {x : α} {xs : List α} :
    First good bad (x :: xs) ↔ bad 0 x ∨ good x ∧ First good (fun k => bad (k + 1)) xs := by
  constructor
  · rintro ⟨earlier, y, later, h, hgood, hbad⟩
    rcases List.cons_eq_append_iff.mp h with ⟨rfl, he⟩ | ⟨earlier, rfl, rfl⟩
    · obtain ⟨rfl, -⟩ := List.cons.inj he
      exact .inl hbad
    · obtain ⟨hx, hearlier⟩ := List.forall_mem_cons.mp hgood
      exact .inr ⟨hx, earlier, y, later, rfl, hearlier, hbad⟩
  · rintro (hbad | ⟨hx, earlier, y, later, rfl, hearlier, hbad⟩)
    · exact ⟨[], x, xs, rfl, nofun, hbad⟩
    · exact ⟨x :: earlier, y, later, rfl, List.forall_mem_cons.mpr ⟨hx, hearlier⟩, hbad⟩

/-- A list of steps that each undo `g`. -/
theorem mapM_eq_ok {f : α → Except ε β} {g : β → α} {xs : List β}
    (h : ∀ x ∈ xs, f (g x) = .ok x) : (xs.map g).mapM f = .ok xs := by
  induction xs with
  | nil => rfl
  | cons x xs ih =>
    obtain ⟨hx, hxs⟩ := List.forall_mem_cons.mp h
    rw [List.map_cons, List.mapM_cons, hx, ok_bind, ih hxs]
    rfl

/-- The results of a list of steps have what each step gives its result. -/
theorem forall_of_mapM {f : α → Except ε β} {P : α → Prop} {Q : β → Prop}
    (hf : ∀ x y, P x → f x = .ok y → Q y) {xs : List α} {ys : List β} (hxs : ∀ x ∈ xs, P x)
    (h : xs.mapM f = .ok ys) : ys.length = xs.length ∧ ∀ y ∈ ys, Q y := by
  induction xs generalizing ys with
  | nil =>
    obtain rfl := Except.ok.inj h
    exact ⟨rfl, nofun⟩
  | cons x xs ih =>
    obtain ⟨hx, hothers⟩ := List.forall_mem_cons.mp hxs
    rw [List.mapM_cons] at h
    obtain ⟨y, hy, h⟩ := bind_eq_ok.mp h
    obtain ⟨others, hread, h⟩ := bind_eq_ok.mp h
    obtain rfl := Except.ok.inj h
    obtain ⟨hlength, hall⟩ := ih hothers hread
    exact ⟨congrArg (· + 1) hlength, List.forall_mem_cons.mpr ⟨hf x y hx hy, hall⟩⟩

end RegisterMachine.Checks
