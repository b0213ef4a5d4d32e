import Mathlib.Data.List.DropRight
import RegisterMachine.Files.Tree

/-!
# Files written and read back

Writing a file changes one place, and that place is no directory before or after. Every path leads
through directories only, so all paths lead to the same places as before.
-/

set_option autoImplicit false

namespace RegisterMachine.Tree

/-! ### Places -/

theorem lookup_cons_ite (p q : Place) (n : FileNode) (nodes : List (Place × FileNode)) :
    ((p, n) :: nodes).lookup q = if q = p then some n else nodes.lookup q := by
  split
  · next heq => rw [heq, List.lookup_cons_self]
  · next hne => simp only [List.lookup_cons, beq_false_of_ne hne]

theorem lookup_map_replace (nodes : List (Place × FileNode)) (place q : Place) (node : FileNode) :
    (nodes.map fun (p, n) => if p = place then (p, node) else (p, n)).lookup q =
      if q = place then (nodes.lookup q).map fun _ => node else nodes.lookup q := by
  induction nodes with
  | nil => simp
  | cons entry nodes ih =>
    obtain ⟨p, n⟩ := entry
    rw [List.map_cons, lookup_cons_ite]
    by_cases hp : p = place
    · rw [if_pos hp, lookup_cons_ite, ih, ← hp]
      split <;> rfl
    · rw [if_neg hp, lookup_cons_ite, ih]
      split
      · next hq => rw [if_neg (hq ▸ hp)]
      · rfl

/-- Putting a node changes its place only. -/
theorem node?_put (t : Tree) {place : Place} (hroot : place ≠ []) (node : FileNode) (q : Place) :
    (t.put place node).node? q = if q = place then some node else t.node? q := by
  by_cases hq : q = []
  · subst hq
    rw [if_neg (Ne.symm hroot)]
    rfl
  · simp only [node?, hq, if_false, put]
    split
    · next hsome =>
      rw [lookup_map_replace]
      split
      · next heq =>
        obtain ⟨old, hold⟩ := Option.isSome_iff_exists.mp hsome
        rw [heq, hold, Option.map_some]
      · rfl
    · next hnone =>
      rw [List.lookup_append, lookup_cons_ite]
      split
      · next heq =>
        rw [heq, Option.not_isSome_iff_eq_none.mp hnone]
        rfl
      · exact Option.or_none

theorem here_put (t : Tree) (place : Place) (node : FileNode) :
    (t.put place node).here = t.here := by
  unfold put
  split <;> rfl

/-- A path that can be followed can be followed in every tree with the same directories. -/
theorem walk_mono {t u : Tree}
    (h : ∀ q, t.node? q = some .directory → u.node? q = some .directory) {parts : List String}
    {place found : Place} (hwalk : t.walk place parts = .ok found) :
    u.walk place parts = .ok found := by
  induction parts generalizing place with
  | nil => exact hwalk
  | cons part rest ih =>
    rw [walk] at hwalk ⊢
    split at hwalk
    · cases hwalk
    · next hdir =>
      rw [h place hdir]
      dsimp only
      split at hwalk
      · next hsame => rw [if_pos hsame, ih hwalk]
      · next hsame =>
        rw [if_neg hsame]
        split at hwalk
        · next hparent => rw [if_pos hparent, ih hwalk]
        · next hparent =>
          rw [if_neg hparent]
          split at hwalk
          · cases hwalk
          · next hname => rw [if_neg hname, ih hwalk]
    · cases hwalk

theorem locate_mono {t u : Tree} (hhere : u.here = t.here)
    (h : ∀ q, t.node? q = some .directory → u.node? q = some .directory) {path : String}
    {found : Place} (hlocate : t.locate path = .ok found) : u.locate path = .ok found := by
  unfold locate at hlocate ⊢
  split at hlocate
  · cases hlocate
  · next hempty =>
    rw [if_neg hempty]
    split at hlocate
    · cases hlocate
    · next hnull =>
      rw [if_neg hnull]
      split at hlocate
      · cases hlocate
      · next hlong =>
        rw [if_neg hlong, hhere]
        exact walk_mono h hlocate

/-! ### Files -/

/-- Only a path without a slash at its end can be written to. -/
theorem target_eq_ok {t : Tree} {path : String} {place : Place} (h : t.target path = .ok place) :
    t.locate path = .ok place ∧ t.node? place ≠ some .directory := by
  unfold target at h
  split at h
  · split at h <;> cases h
  · next found hfound =>
    split at h
    · cases h
    · next hfree =>
      obtain rfl := Except.ok.inj h
      obtain ⟨hlast, hdir⟩ := not_or.mp hfree
      have hstripped : path.toList.rdropWhile (· == '/') = path.toList := by
        refine List.rdropWhile_eq_self_iff.mpr fun hne hslash => hlast ?_
        rw [List.getLast?_eq_getLast_of_ne_nil hne]
        exact congrArg some (eq_of_beq hslash)
      rw [List.rdropWhile] at hstripped
      rw [hstripped, String.ofList_toList] at hfound
      exact ⟨hfound, hdir⟩

theorem readFile_congr {t u : Tree} {path : String} {place : Place}
    (ht : t.locate path = .ok place) (hu : u.locate path = .ok place)
    (hnode : t.node? place = u.node? place) : t.readFile path = u.readFile path := by
  simp only [readFile, find, ht, hu, hnode]

theorem locate_of_readFile {t : Tree} {path : String} {bytes : List UInt8}
    (h : t.readFile path = .ok bytes) : ∃ place, t.locate path = .ok place := by
  unfold readFile find at h
  cases hlocate : t.locate path with
  | ok place => exact ⟨place, rfl⟩
  | error problem =>
    rw [hlocate] at h
    cases h

/-- What a tree is after a file was written. -/
structure Written (t : Tree) (path : String) (bytes : List UInt8) (u : Tree) (place : Place) :
    Prop where
  located : t.locate path = .ok place
  free : t.node? place ≠ some .directory
  here : u.here = t.here
  node : ∀ q, u.node? q = if q = place then some (.file bytes) else t.node? q

section Written

variable {t u : Tree} {path : String} {bytes : List UInt8}

theorem written_of_writeFile (h : t.writeFile path bytes = .ok u) :
    ∃ place, Written t path bytes u place := by
  unfold writeFile at h
  split at h
  · cases h
  · next place hplace =>
    obtain rfl := Except.ok.inj h
    obtain ⟨hlocate, hfree⟩ := target_eq_ok hplace
    have hroot : place ≠ [] := by
      rintro rfl
      exact hfree rfl
    exact ⟨place, hlocate, hfree, here_put t place _, node?_put t hroot _⟩

/-- The directories are the same as before. -/
theorem Written.directory_iff {place : Place} (h : Written t path bytes u place) (q : Place) :
    t.node? q = some .directory ↔ u.node? q = some .directory := by
  rw [h.node]
  split
  · next heq => simp [heq, h.free]
  · rfl

/-- A written file is read back. -/
theorem readFile_writeFile (h : t.writeFile path bytes = .ok u) : u.readFile path = .ok bytes := by
  obtain ⟨place, hw⟩ := written_of_writeFile h
  have hlocate := locate_mono hw.here (fun q => (hw.directory_iff q).mp) hw.located
  have hnode : u.node? place = some (.file bytes) := by rw [hw.node, if_pos rfl]
  simp only [readFile, find, hlocate, hnode]

/-- What is read after a file was written is that file, or it was there before. -/
theorem readFile_of_writeFile (h : t.writeFile path bytes = .ok u) {other : String}
    {content : List UInt8} (hread : u.readFile other = .ok content) :
    content = bytes ∨ t.readFile other = .ok content := by
  obtain ⟨place, hw⟩ := written_of_writeFile h
  obtain ⟨q, hq⟩ := locate_of_readFile hread
  by_cases hplace : q = place
  · have hnode : u.node? q = some (.file bytes) := by rw [hw.node, if_pos hplace]
    simp only [readFile, find, hq, hnode] at hread
    exact .inl (Except.ok.inj hread).symm
  · have hlocate := locate_mono hw.here.symm (fun q => (hw.directory_iff q).mpr) hq
    have hnode : t.node? q = u.node? q := by rw [hw.node, if_neg hplace]
    exact .inr ((readFile_congr hlocate hq hnode).trans hread)

end Written

end RegisterMachine.Tree
