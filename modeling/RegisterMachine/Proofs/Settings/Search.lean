import Mathlib.Data.List.Induction
import RegisterMachine.Proofs.Files.Ancestors
import RegisterMachine.Settings.File

/-!
# The nearest settings file

The search for a settings file goes from a directory to its parent, until a directory has the file
or is its own parent. It ends from every directory, having looked at each directory on its way once
and in order. What it finds is the deepest directory that has the file, and what is in the file is
the last word: a file that cannot be read does not send the search on.
-/

set_option autoImplicit false

namespace RegisterMachine.Settings

variable {t : Tree} {parts : List String}

/-- The directory has an entry with the name of a settings file, whatever that entry is. -/
def Offers (t : Tree) (dir : String) : Prop :=
  t.has (Path.join dir fileName) = true

instance (t : Tree) (dir : String) : Decidable (Offers t dir) :=
  inferInstanceAs (Decidable (_ = _))

/-! ### The search, directory by directory -/

/-- The search from a directory, with the directories that it looks at and what comes out. -/
inductive Searches (t : Tree) : String → List String → Except SettingsError Settings → Prop
  | found {dir : String} (offered : Offers t dir) : Searches t dir [dir] (load t dir)
  | nowhere {dir : String} (missing : ¬ Offers t dir) (root : Path.parent dir = dir) :
      Searches t dir [dir] (.ok {})
  | onward {dir : String} {looked : List String} {outcome : Except SettingsError Settings}
      (missing : ¬ Offers t dir) (below : Path.parent dir ≠ dir)
      (rest : Searches t (Path.parent dir) looked outcome) : Searches t dir (dir :: looked) outcome

theorem Searches.unique {dir : String} {looked looked' : List String}
    {outcome outcome' : Except SettingsError Settings} (h : Searches t dir looked outcome)
    (h' : Searches t dir looked' outcome') : looked' = looked ∧ outcome' = outcome := by
  induction h generalizing looked' outcome' with
  | found offered =>
    cases h' with
    | found => exact ⟨rfl, rfl⟩
    | nowhere missing => exact absurd offered missing
    | onward missing => exact absurd offered missing
  | nowhere missing root =>
    cases h' with
    | found offered => exact absurd offered missing
    | nowhere => exact ⟨rfl, rfl⟩
    | onward _ below => exact absurd root below
  | onward missing below _ ih =>
    cases h' with
    | found offered => exact absurd offered missing
    | nowhere _ root => exact absurd root below
    | onward _ _ rest =>
      obtain ⟨rfl, rfl⟩ := ih rest
      exact ⟨rfl, rfl⟩

/-- The settings of the directory that was found, the defaults if there is none. -/
def outcome (t : Tree) : Option String → Except SettingsError Settings
  | none => .ok {}
  | some dir => load t dir

theorem find_eq (t : Tree) (start : String) : find t start =
    outcome t (nearest? t (Path.resolve (Path.ofParts t.here) start).parts.reverse) := by
  unfold find
  cases nearest? t (Path.resolve (Path.ofParts t.here) start).parts.reverse <;> rfl

theorem nearest?_root (t : Tree) : nearest? t [].reverse =
    if Offers t (Path.ofParts []) then some (Path.ofParts []) else none := rfl

theorem nearest?_concat (t : Tree) (upper : List String) (name : String) :
    nearest? t (upper ++ [name]).reverse =
      if Offers t (Path.ofParts (upper ++ [name])) then some (Path.ofParts (upper ++ [name]))
      else nearest? t upper.reverse := by
  have hback : (name :: upper.reverse).reverse = upper ++ [name] := by simp
  rw [List.reverse_append, List.reverse_singleton, List.singleton_append, nearest?, hback]
  rfl

/-- **The search ends.** The induction is on the depth of the directory. -/
theorem searches_nearest? (t : Tree) (h : Path.Proper parts) :
    ∃ looked, looked <+: Path.upward parts ∧
      Searches t (Path.ofParts parts) looked (outcome t (nearest? t parts.reverse)) := by
  induction parts using List.reverseRecOn with
  | nil =>
    refine ⟨[Path.ofParts []], List.prefix_rfl, ?_⟩
    rw [nearest?_root]
    split
    · next offered => exact .found offered
    · next missing => exact .nowhere missing Path.parent_root
  | append_singleton upper name ih =>
    rw [nearest?_concat, Path.upward_concat]
    split
    · next offered => exact ⟨_, List.prefix_append .., .found offered⟩
    · next missing =>
      obtain ⟨looked, hlooked, rest⟩ := ih (h.of_prefix (List.prefix_append ..))
      rw [← Path.parent_ofParts h] at rest
      exact ⟨_, List.cons_prefix_cons.mpr ⟨rfl, hlooked⟩, .onward missing (Path.parent_ne h) rest⟩

/-! ### What is found -/

theorem nearest?_eq_some {found : String} (h : nearest? t parts.reverse = some found) :
    ∃ upper, upper <+: parts ∧ found = Path.ofParts upper ∧ Offers t found ∧
      ∀ other, other <+: parts → Offers t (Path.ofParts other) → other <+: upper := by
  induction parts using List.reverseRecOn with
  | nil =>
    rw [nearest?_root] at h
    split at h
    · next offered =>
      obtain rfl := Option.some.inj h
      exact ⟨[], List.prefix_rfl, rfl, offered, fun _ hother _ => hother⟩
    · cases h
  | append_singleton upper name ih =>
    rw [nearest?_concat] at h
    split at h
    · next offered =>
      obtain rfl := Option.some.inj h
      exact ⟨_, List.prefix_rfl, rfl, offered, fun _ hother _ => hother⟩
    · next missing =>
      obtain ⟨above, habove, hfound, offered, deepest⟩ := ih h
      refine ⟨above, habove.trans (List.prefix_append ..), hfound, offered, ?_⟩
      intro other hother offers
      rcases List.prefix_concat_iff.mp hother with rfl | hother
      · exact absurd offers missing
      · exact deepest other hother offers

theorem nearest?_eq_none (h : nearest? t parts.reverse = none) {upper : List String}
    (hupper : upper <+: parts) : ¬ Offers t (Path.ofParts upper) := by
  induction parts using List.reverseRecOn with
  | nil =>
    obtain rfl := List.prefix_nil.mp hupper
    rw [nearest?_root] at h
    split at h
    · cases h
    · next missing => exact missing
  | append_singleton parts name ih =>
    rw [nearest?_concat] at h
    split at h
    · cases h
    · next missing =>
      rcases List.prefix_concat_iff.mp hupper with rfl | hupper
      · exact missing
      · exact ih h hupper

/-- Settings that were loaded remember the directory of their file. -/
theorem dir_of_load (h : Path.Proper parts) {s : Settings}
    (loaded : load t (Path.ofParts parts) = .ok s) : s.dir = Path.ofParts parts := by
  unfold load at loaded
  dsimp only at loaded
  split at loaded
  · cases loaded
  · split at loaded
    · cases loaded
    · obtain rfl := Except.ok.inj loaded
      exact Path.resolve_ofParts h _

/-- Of the directories that hold `dir`, and `dir` itself, `found` is the deepest with the file. -/
structure Nearest (t : Tree) (dir found : String) : Prop where
  encloses : Path.Encloses found dir
  offers : Offers t found
  deepest : ∀ other, Path.Encloses other dir → Offers t other → Path.Encloses other found

/-- **The search ends at the nearest settings file,** from every absolute path and from every path
that is read from the current directory. It has one course and one outcome. If a directory on the
way to the root has the file, the outcome is that of loading the file from the deepest one, be it
settings or an error; otherwise it is the defaults. -/
theorem search_ends_nearest (t : Tree) (start : String) :
    let p := Path.resolve (Path.ofParts t.here) start
    (∃ looked, looked <+: Path.upward p.parts ∧
      ∀ looked' outcome, Searches t p.text looked' outcome ↔
        looked' = looked ∧ outcome = find t start) ∧
    ((∃ above, Path.Encloses above p.text ∧ Offers t above) →
      ∃ dir, Nearest t p.text dir ∧ find t start = load t dir ∧
        ∀ s, load t dir = .ok s → s.dir = dir) ∧
    ((∀ above, Path.Encloses above p.text → ¬ Offers t above) → find t start = .ok {}) := by
  intro p
  obtain ⟨absolute, proper⟩ := Path.proper_resolve (Path.isAbsolute_ofParts t.here) start
  rw [find_eq, Path.text_of_absolute absolute]
  refine ⟨?_, ?_, ?_⟩
  · obtain ⟨looked, hlooked, searched⟩ := searches_nearest? t proper
    refine ⟨looked, hlooked, fun looked' outcome => ⟨searched.unique, ?_⟩⟩
    rintro ⟨rfl, rfl⟩
    exact searched
  · rintro ⟨above, encloses, offers⟩
    cases hnearest : nearest? t p.parts.reverse with
    | none =>
      obtain ⟨upper, hupper, rfl⟩ := (Path.encloses_ofParts proper).mp encloses
      exact absurd offers (nearest?_eq_none hnearest hupper)
    | some dir =>
      obtain ⟨upper, hupper, rfl, offered, deepest⟩ := nearest?_eq_some hnearest
      have hproper := proper.of_prefix hupper
      refine ⟨_, ⟨(Path.encloses_ofParts proper).mpr ⟨upper, hupper, rfl⟩, offered, ?_⟩, rfl,
        fun s loaded => dir_of_load hproper loaded⟩
      intro other hother offers
      obtain ⟨lower, hlower, rfl⟩ := (Path.encloses_ofParts proper).mp hother
      exact (Path.encloses_ofParts hproper).mpr ⟨lower, deepest lower hlower offers, rfl⟩
  · intro nowhere
    cases hnearest : nearest? t p.parts.reverse with
    | none => rfl
    | some dir =>
      obtain ⟨upper, hupper, rfl, offered, -⟩ := nearest?_eq_some hnearest
      exact absurd offered (nowhere _ ((Path.encloses_ofParts proper).mpr ⟨upper, hupper, rfl⟩))

/-- Below a directory with a good settings file is one where its name is taken by a directory. -/
def nestedTree : Tree where
  nodes := [(["home"], .directory), (["home", "svm.toml"], .file (Utf8.encode "mem-size = 42\n")),
    (["home", "work"], .directory), (["home", "work", "svm.toml"], .directory)]

/-- The search stops at the nearer entry, which cannot be read; from beside it, it comes to the
file above. Directories that do not exist are passed. -/
theorem search_ends_nearest_unreadable :
    Path.Encloses "/home" "/home/work/deep" ∧ Offers nestedTree "/home" ∧
    (∃ dir, Nearest nestedTree "/home/work/deep" dir ∧
      find nestedTree "/home/work//deep/er/.." = load nestedTree dir ∧
      ∀ s, load nestedTree dir = .ok s → s.dir = dir) ∧
    find nestedTree "/home/work//deep/er/.." = .error (.unreadable "/home/work/svm.toml"
      { action := "read", path := "/home/work/svm.toml", problem := .isDirectory }) ∧
    find nestedTree "/home/play" = .ok { memSize := 42, dir := "/home" } ∧
    find nestedTree "/srv" = .ok {} := by
  have hparts : (Path.ofText "/home/work/deep").parts = ["home", "work", "deep"] := by decide
  have proper : Path.Proper ["home", "work", "deep"] := by
    rw [← hparts]
    exact (Path.proper_ofText (by decide)).2
  have encloses : Path.Encloses "/home" "/home/work/deep" :=
    ⟨["home"], ["home", "work", "deep"], proper, by decide, by decide, by decide⟩
  have offers : Offers nestedTree "/home" := by decide +kernel
  have hstart : (Path.resolve (Path.ofParts nestedTree.here) "/home/work//deep/er/..").text =
      "/home/work/deep" := by decide +kernel
  have nearest := (search_ends_nearest nestedTree "/home/work//deep/er/..").2.1
  rw [hstart] at nearest
  exact ⟨encloses, offers, nearest ⟨_, encloses, offers⟩, by decide +kernel, by decide +kernel,
    by decide +kernel⟩

end RegisterMachine.Settings
