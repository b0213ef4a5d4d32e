import RegisterMachine.Proofs.Files.Writing

/-!
# Where paths lead

The last part of a path is the name of the place that it leads to, and joining a directory and a
name keeps the name. So files with different names are at different places, whatever the directory
is. The file tree only grows when directories are made: every path to a file leads to it afterwards.
-/

set_option autoImplicit false

namespace RegisterMachine

/-! ### Pieces -/

section Pieces

variable {divider : Char} {ys : List Char}

theorem pieces_ne_nil (xs : List Char) : pieces divider xs ≠ [] := by
  cases xs with
  | nil => exact List.cons_ne_nil _ _
  | cons c rest =>
    rw [pieces]
    split
    · exact List.cons_ne_nil _ _
    · split <;> exact List.cons_ne_nil _ _

theorem pieces_of_notMem (h : divider ∉ ys) : pieces divider ys = [ys] := by
  induction ys with
  | nil => rfl
  | cons c rest ih =>
    obtain ⟨hc, hrest⟩ := not_or.mp (mt List.mem_cons.mpr h)
    rw [pieces, if_neg (Ne.symm hc), ih hrest]

/-- A divider keeps what stands in front of it apart from what stands behind it. -/
theorem pieces_divided (xs zs : List Char) :
    pieces divider (xs ++ divider :: zs) = pieces divider xs ++ pieces divider zs := by
  induction xs with
  | nil =>
    have hfirst : pieces divider (divider :: zs) = [] :: pieces divider zs := if_pos rfl
    rw [List.nil_append, hfirst]
    rfl
  | cons c rest ih =>
    rw [List.cons_append, pieces, pieces, ih]
    split
    · rfl
    · cases hrest : pieces divider rest with
      | nil => exact absurd hrest (pieces_ne_nil rest)
      | cons piece more => rfl

/-- What stands behind the last divider is a piece of its own. -/
theorem pieces_append (xs : List Char) (h : divider ∉ ys) :
    pieces divider (xs ++ divider :: ys) = pieces divider xs ++ [ys] := by
  rw [pieces_divided, pieces_of_notMem h]

theorem notMem_of_mem_pieces {xs piece : List Char} (h : piece ∈ pieces divider xs) :
    divider ∉ piece := by
  induction xs generalizing piece with
  | nil =>
    rw [List.mem_singleton.mp h]
    exact List.not_mem_nil
  | cons c rest ih =>
    rw [pieces] at h
    split at h
    · rcases List.mem_cons.mp h with rfl | h
      · exact List.not_mem_nil
      · exact ih h
    · next hc =>
      cases hrest : pieces divider rest with
      | nil => exact absurd hrest (pieces_ne_nil rest)
      | cons first more =>
        rw [hrest] at h ih
        rcases List.mem_cons.mp h with rfl | h
        · rw [List.mem_cons, not_or]
          exact ⟨Ne.symm hc, ih List.mem_cons_self⟩
        · exact ih (List.mem_cons_of_mem _ h)

/-- Between dividers there is nothing. -/
theorem eq_nil_of_mem_pieces {xs piece : List Char} (h : ∀ c ∈ xs, c = divider)
    (hp : piece ∈ pieces divider xs) : piece = [] := by
  induction xs with
  | nil => exact List.mem_singleton.mp hp
  | cons c rest ih =>
    obtain ⟨hc, hrest⟩ := List.forall_mem_cons.mp h
    rw [pieces, if_pos hc] at hp
    rcases List.mem_cons.mp hp with rfl | hp
    · rfl
    · exact ih hrest hp

end Pieces

/-! ### Names -/

namespace Path

/-- A part of a path that leads on from a directory to an entry of it. -/
structure EntryName (name : String) : Prop where
  slash : '/' ∉ name.toList
  nonempty : name ≠ ""
  current : name ≠ "."
  parent : name ≠ ".."

/-- The last part of the text is `name`. -/
def EndsIn (s name : String) : Prop :=
  s = name ∨ ∃ dir, s = dir ++ "/" ++ name

variable {s name : String}

theorem EndsIn.under (dir : String) (h : EndsIn s name) : EndsIn (dir ++ "/" ++ s) name := by
  rcases h with rfl | ⟨inner, rfl⟩
  · exact .inr ⟨dir, rfl⟩
  · exact .inr ⟨dir ++ "/" ++ inner, by simp only [String.append_assoc]⟩

theorem EndsIn.pathParts (h : EndsIn s name) (entry : EntryName name) :
    ∃ parts, (pathParts s.toList).map String.ofList = parts ++ [name] := by
  rcases h with rfl | ⟨dir, rfl⟩
  · refine ⟨[], ?_⟩
    rw [RegisterMachine.pathParts, pieces_of_notMem entry.slash, List.map_singleton,
      String.ofList_toList, List.nil_append]
  · refine ⟨(RegisterMachine.pathParts dir.toList).map String.ofList, ?_⟩
    have htext : (dir ++ "/" ++ name).toList = dir.toList ++ '/' :: name.toList := by simp
    rw [RegisterMachine.pathParts, htext, pieces_append _ entry.slash, List.map_append,
      List.map_singleton, String.ofList_toList]
    rfl

theorem enter_entryName (entry : EntryName name) (absolute : Bool) (before : List String) :
    enter absolute before name = name :: before := by
  rw [enter.eq_def, if_neg (not_or.mpr ⟨entry.nonempty, entry.current⟩), if_neg entry.parent]

/-- The last part survives when a path is made clean. -/
theorem EndsIn.parts_ofText (h : EndsIn s name) (entry : EntryName name) :
    ∃ parts, (ofText s).parts = parts ++ [name] := by
  obtain ⟨parts, hparts⟩ := h.pathParts entry
  refine ⟨(parts.foldl (enter (isAbsolute s)) []).reverse, ?_⟩
  rw [ofText, hparts, List.foldl_append, List.foldl_cons, List.foldl_nil,
    enter_entryName entry, List.reverse_cons]

theorem endsIn_intercalate (parts : List String) :
    EndsIn ("/".intercalate (parts ++ [name])) name := by
  induction parts with
  | nil => exact .inl String.intercalate_singleton
  | cons part rest ih =>
    rw [List.cons_append, String.intercalate_cons_of_ne_nil (by simp)]
    exact ih.under part

theorem endsIn_text {p : Path} {parts : List String} (h : p.parts = parts ++ [name]) :
    EndsIn p.text name := by
  rw [text, h]
  split
  · exact (endsIn_intercalate parts).under ""
  · rw [if_neg (by simp)]
    exact endsIn_intercalate parts

theorem EndsIn.clean (h : EndsIn s name) (entry : EntryName name) : EndsIn (clean s) name := by
  obtain ⟨parts, hparts⟩ := h.parts_ofText entry
  exact endsIn_text hparts

/-- **A name that is joined to a directory stays the last part.** -/
theorem endsIn_join (dir : String) (entry : EntryName name) : EndsIn (join dir name) name := by
  unfold join
  rw [if_neg (fun h => entry.nonempty h.2)]
  split
  · exact EndsIn.clean (.inl rfl) entry
  · rw [if_neg entry.nonempty]
    exact EndsIn.clean (.inr ⟨dir, rfl⟩) entry

/-- Only a path of nothing but slashes has a slash in its last part. -/
theorem forall_slash_of_mem_base (h : '/' ∈ (base s).toList) :
    s ≠ "" ∧ ∀ c ∈ s.toList, c = '/' := by
  unfold base at h
  split at h
  · exact absurd h (by decide)
  · next hne =>
    refine ⟨hne, ?_⟩
    dsimp only at h
    split at h
    · next hempty =>
      intro c hc
      by_contra hother
      have hdrop : s.toList.reverse.dropWhile (· == '/') ≠ [] := by
        intro hnil
        have hall := List.dropWhile_eq_nil_iff.mp hnil c (List.mem_reverse.mpr hc)
        exact hother (eq_of_beq hall)
      have hhead := List.head_dropWhile_not (· == '/') hdrop
      obtain ⟨d, ds, hds⟩ := List.exists_cons_of_ne_nil hdrop
      simp only [hds, List.head_cons] at hhead
      rw [hds, List.takeWhile_cons, if_pos (by simp [bne, hhead])] at hempty
      cases hempty
    · rw [String.toList_ofList, List.mem_reverse] at h
      have hslash := List.mem_takeWhile_imp h
      simp at hslash

theorem forall_slash_of_mem_stem (h : '/' ∈ (stem s).toList) :
    s ≠ "" ∧ ∀ c ∈ s.toList, c = '/' := by
  refine forall_slash_of_mem_base ?_
  unfold stem at h
  dsimp only at h
  split at h
  · rw [String.toList_ofList] at h
    exact List.mem_of_mem_take h
  · rwa [String.toList_ofList] at h

end Path

/-! ### Places -/

namespace Tree

variable {t : Tree}

/-- A path is followed to the entry that it names last. -/
theorem getLast?_walk {name : String} (entry : Path.EntryName name) {parts : List String}
    {place found : Place} (h : t.walk place (parts ++ [name]) = .ok found) :
    found.getLast? = some name := by
  induction parts generalizing place with
  | nil =>
    rw [List.nil_append, walk] at h
    split at h
    · cases h
    · rw [if_neg (not_or.mpr ⟨entry.nonempty, entry.current⟩), if_neg entry.parent] at h
      split at h
      · cases h
      · rw [walk] at h
        rw [← Except.ok.inj h, List.getLast?_concat]
    · cases h
  | cons part rest ih =>
    rw [List.cons_append, walk] at h
    split at h
    · cases h
    · split at h
      · exact ih h
      · split at h
        · exact ih h
        · split at h
          · cases h
          · exact ih h
    · cases h

theorem walk_of_locate {path : String} {place : Place} (h : t.locate path = .ok place) :
    t.walk (if Path.isAbsolute path then [] else t.here)
      ((pathParts path.toList).map String.ofList) = .ok place := by
  unfold locate at h
  split at h
  · cases h
  · split at h
    · cases h
    · split at h
      · cases h
      · exact h

/-- **The name of a place is the last part of every path to it.** -/
theorem getLast?_locate {path name : String} (ends : Path.EndsIn path name)
    (entry : Path.EntryName name) {place : Place} (h : t.locate path = .ok place) :
    place.getLast? = some name := by
  obtain ⟨parts, hparts⟩ := ends.pathParts entry
  have hwalk := walk_of_locate h
  rw [hparts] at hwalk
  exact getLast?_walk entry hwalk

theorem walk_empty {parts : List String} (hparts : ∀ part ∈ parts, part = "") {place found : Place}
    (h : t.walk place parts = .ok found) : found = place := by
  induction parts with
  | nil => exact (Except.ok.inj h).symm
  | cons part rest ih =>
    obtain ⟨hpart, hrest⟩ := List.forall_mem_cons.mp hparts
    rw [walk] at h
    split at h
    · cases h
    · rw [if_pos (.inl hpart)] at h
      exact ih hrest h
    · cases h

/-- Slashes alone lead to the root. -/
theorem locate_slashes {path : String} (hne : path ≠ "") (h : ∀ c ∈ path.toList, c = '/')
    {place : Place} (hlocate : t.locate path = .ok place) : place = [] := by
  have habsolute : Path.isAbsolute path = true := by
    obtain ⟨c, cs, hchars⟩ := List.exists_cons_of_ne_nil (mt String.toList_eq_nil_iff.mp hne)
    rw [hchars] at h
    have hc := h c List.mem_cons_self
    simp [Path.isAbsolute, hchars, hc]
  have hwalk := walk_of_locate hlocate
  rw [if_pos habsolute] at hwalk
  refine walk_empty (fun part hpart => ?_) hwalk
  obtain ⟨piece, hpiece, rfl⟩ := List.mem_map.mp hpart
  rw [eq_nil_of_mem_pieces h hpiece]

/-- A file has a name. -/
theorem slash_notMem_stem {path : String} {bytes : List UInt8}
    (h : t.readFile path = .ok bytes) : '/' ∉ (Path.stem path).toList := by
  intro hslash
  obtain ⟨hne, hall⟩ := Path.forall_slash_of_mem_stem hslash
  obtain ⟨place, hplace⟩ := locate_of_readFile h
  obtain rfl := locate_slashes hne hall hplace
  have hroot : t.node? [] = some .directory := rfl
  simp only [readFile, find, hplace, hroot] at h
  cases h

/-! ### Directories made -/

/-- Everything in the tree `t` is in `u` too. -/
structure Extends (t u : Tree) : Prop where
  here : u.here = t.here
  node : ∀ {q node}, t.node? q = some node → u.node? q = some node

theorem extends_makeDirectory {u : Tree} {path : String} (h : t.makeDirectory path = .ok u) :
    Extends t u := by
  unfold makeDirectory at h
  split at h
  · cases h
  · next place hplace =>
    split at h
    · cases h
    · next hfree =>
      obtain rfl := Except.ok.inj h
      have hroot : place ≠ [] := by
        rintro rfl
        exact hfree rfl
      refine ⟨here_put t place _, fun {q node} hq => ?_⟩
      rw [node?_put t hroot, if_neg, hq]
      rintro rfl
      exact hfree (by rw [hq]; rfl)

theorem extends_makeStages {stages : List (List Char)} {t u : Tree}
    (h : t.makeStages stages = .ok u) : Extends t u := by
  induction stages generalizing t with
  | nil =>
    obtain rfl := Except.ok.inj h
    exact ⟨rfl, id⟩
  | cons stage rest ih =>
    rw [makeStages] at h
    split at h
    · exact ih h
    · cases h
    · split at h
      · cases h
      · next middle hmiddle =>
        have first := extends_makeDirectory hmiddle
        have later := ih h
        exact ⟨later.here.trans first.here, fun hq => later.node (first.node hq)⟩

/-- **Making directories leaves every file where it was.** -/
theorem readFile_makeDirectories {t u : Tree} {dir path : String} {bytes : List UInt8}
    (h : t.makeDirectories dir = .ok u) (hread : t.readFile path = .ok bytes) :
    u.readFile path = .ok bytes := by
  have ext : Extends t u := extends_makeStages h
  obtain ⟨place, hplace⟩ := locate_of_readFile hread
  have hplace' := locate_mono ext.here (fun _ => ext.node) hplace
  cases hnode : t.node? place with
  | none => simp [readFile, find, hplace, hnode] at hread
  | some node =>
    have hsame : t.node? place = u.node? place := hnode.trans (ext.node hnode).symm
    exact (readFile_congr hplace hplace' hsame).symm.trans hread

/-! ### Files at other places -/

/-- A file is read as before if another place was written. -/
theorem Written.readFile_of_ne {u : Tree} {path other : String} {bytes : List UInt8}
    {place q : Place} (h : Written t path bytes u place) (hq : t.locate other = .ok q)
    (hne : q ≠ place) : u.readFile other = t.readFile other := by
  have hlocate := locate_mono h.here (fun q => (h.directory_iff q).mp) hq
  exact readFile_congr hlocate hq (by rw [h.node, if_neg hne])

end Tree

end RegisterMachine
