import Mathlib.Data.List.Infix
import RegisterMachine.Proofs.Files.Paths

/-!
# Directories and those that hold them

An absolute path that is clean has a text and a list of parts, and each gives the other. The parent
of a directory is cut from its text; in the parts it is the path without the last one. So going from
parent to parent passes through all directories that hold the first, and stays at the root.
-/

set_option autoImplicit false

namespace RegisterMachine.Path

/-- The parts of a clean absolute path. -/
def Proper (parts : List String) : Prop :=
  ∀ part ∈ parts, EntryName part

variable {parts : List String} {s : String}

theorem Proper.of_prefix {upper : List String} (h : Proper parts) (hupper : upper <+: parts) :
    Proper upper :=
  fun part hpart => h part (hupper.subset hpart)

/-! ### Texts and parts -/

/-- The text of a directory with a slash behind it, where the name of an entry can follow. -/
def stub (parts : List String) : List Char :=
  '/' :: parts.flatMap fun part => part.toList ++ ['/']

theorem toList_intercalate_concat (parts : List String) (name : String) :
    ("/".intercalate (parts ++ [name])).toList =
      (parts.flatMap fun part => part.toList ++ ['/']) ++ name.toList := by
  induction parts with
  | nil => rw [List.nil_append, String.intercalate_singleton, List.flatMap_nil, List.nil_append]
  | cons part rest ih =>
    rw [List.cons_append, String.intercalate_cons_of_ne_nil (by simp), String.toList_append,
      String.toList_append, ih, List.flatMap_cons, List.append_assoc (part.toList ++ ['/'])]
    rfl

theorem ofParts_eq (parts : List String) : ofParts parts = "/" ++ "/".intercalate parts := rfl

theorem toList_ofParts_concat (parts : List String) (name : String) :
    (ofParts (parts ++ [name])).toList = stub parts ++ name.toList := by
  rw [ofParts_eq, String.toList_append, toList_intercalate_concat]
  rfl

theorem pathParts_stub (h : Proper parts) {name : List Char} (hname : '/' ∉ name) :
    pathParts (stub parts ++ name) = [] :: (parts.map String.toList ++ [name]) := by
  have hbehind : ∀ parts : List String, Proper parts →
      pieces '/' ((parts.flatMap fun part => part.toList ++ ['/']) ++ name) =
        parts.map String.toList ++ [name] := by
    intro parts
    induction parts with
    | nil => exact fun _ => pieces_of_notMem hname
    | cons part rest ih =>
      intro h
      obtain ⟨hpart, hrest⟩ := List.forall_mem_cons.mp h
      rw [List.flatMap_cons, List.append_assoc, List.append_assoc, List.singleton_append,
        pieces_divided, pieces_of_notMem hpart.slash, ih hrest]
      rfl
  have hfirst : ∀ rest, pieces '/' ('/' :: rest) = [] :: pieces '/' rest := fun _ => if_pos rfl
  rw [pathParts, stub, List.cons_append, hfirst, hbehind parts h]

theorem enter_empty (absolute : Bool) (before : List String) :
    enter absolute before "" = before :=
  if_pos (.inl rfl)

theorem foldl_enter (h : Proper parts) (before : List String) :
    parts.foldl (enter true) before = parts.reverse ++ before := by
  induction parts generalizing before with
  | nil => rfl
  | cons part rest ih =>
    obtain ⟨hpart, hrest⟩ := List.forall_mem_cons.mp h
    rw [List.foldl_cons, enter_entryName hpart, ih hrest, List.reverse_cons, List.append_assoc]
    rfl

/-- The text is read part by part; what follows the last slash counts if it is not empty. -/
theorem ofText_stub (h : Proper parts) {name : String} (hname : '/' ∉ name.toList)
    (hs : s.toList = stub parts ++ name.toList) :
    ofText s = ⟨true, (enter true parts.reverse name).reverse⟩ := by
  have habsolute : isAbsolute s = true := by
    rw [isAbsolute, hs]
    rfl
  have hback : (parts.map String.toList).map String.ofList = parts := by
    rw [List.map_map]
    exact List.map_id'' (fun part => String.ofList_toList) parts
  have hparts : (pathParts s.toList).map String.ofList = "" :: (parts ++ [name]) := by
    rw [hs, pathParts_stub h hname, List.map_cons, List.map_append, hback, List.map_singleton,
      String.ofList_toList]
  rw [ofText, habsolute, hparts, List.foldl_cons, enter_empty, List.foldl_append, foldl_enter h,
    List.append_nil, List.foldl_cons, List.foldl_nil]

/-- **The text of a clean absolute path is read back as its parts.** -/
theorem ofText_ofParts (h : Proper parts) : ofText (ofParts parts) = ⟨true, parts⟩ := by
  rcases List.eq_nil_or_concat parts with rfl | ⟨upper, name, rfl⟩
  · decide
  · rw [List.concat_eq_append] at h ⊢
    have entry : EntryName name := h name (by simp)
    rw [ofText_stub (h.of_prefix (List.prefix_append ..)) entry.slash
      (toList_ofParts_concat upper name), enter_entryName entry, List.reverse_cons,
      List.reverse_reverse]

theorem ofParts_injective {others : List String} (h : Proper parts) (h' : Proper others)
    (heq : ofParts parts = ofParts others) : parts = others := by
  have hpaths := (ofText_ofParts h).symm.trans ((congrArg ofText heq).trans (ofText_ofParts h'))
  exact congrArg Path.parts hpaths

theorem isAbsolute_ofParts (parts : List String) : isAbsolute (ofParts parts) = true := by
  rw [isAbsolute, ofParts_eq, String.toList_append]
  rfl

/-! ### Clean paths -/

theorem proper_enter {before : List String} (h : Proper before) {part : String}
    (slash : '/' ∉ part.toList) : Proper (enter true before part) := by
  unfold enter
  split
  · exact h
  · next hkept =>
    obtain ⟨nonempty, current⟩ := not_or.mp hkept
    split
    · split
      · exact h
      · obtain ⟨hlast, hrest⟩ := List.forall_mem_cons.mp h
        rw [if_neg hlast.parent]
        exact hrest
    · next parent => exact List.forall_mem_cons.mpr ⟨⟨slash, nonempty, current, parent⟩, h⟩

theorem proper_foldl_enter {texts : List String} (slash : ∀ part ∈ texts, '/' ∉ part.toList)
    {before : List String} (h : Proper before) : Proper (texts.foldl (enter true) before) := by
  induction texts generalizing before with
  | nil => exact h
  | cons part rest ih =>
    obtain ⟨hpart, hrest⟩ := List.forall_mem_cons.mp slash
    exact ih hrest (proper_enter h hpart)

/-- **What is read from an absolute path has no part left that is to be cancelled.** -/
theorem proper_ofText (h : isAbsolute s = true) :
    (ofText s).absolute = true ∧ Proper (ofText s).parts := by
  refine ⟨h, fun part hpart => ?_⟩
  have slash : ∀ part ∈ (pathParts s.toList).map String.ofList, '/' ∉ part.toList := by
    intro part hpart
    obtain ⟨piece, hpiece, rfl⟩ := List.mem_map.mp hpart
    rw [String.toList_ofList]
    exact notMem_of_mem_pieces hpiece
  rw [ofText, h, List.mem_reverse] at hpart
  exact proper_foldl_enter slash (List.forall_mem_nil _) part hpart

theorem text_of_absolute {p : Path} (h : p.absolute = true) : p.text = ofParts p.parts := by
  rw [ofParts, text, text, if_pos h, if_pos rfl]

theorem isAbsolute_clean (h : isAbsolute s = true) : isAbsolute (clean s) = true := by
  rw [clean, text_of_absolute h, isAbsolute_ofParts]

/-- A path that is resolved from an absolute directory is absolute and clean. -/
theorem proper_resolve {here : String} (h : isAbsolute here = true) (s : String) :
    (resolve here s).absolute = true ∧ Proper (resolve here s).parts := by
  have hne : here ≠ "" := by
    rintro rfl
    cases h
  unfold resolve
  split
  · next hs => exact proper_ofText hs
  · refine proper_ofText ?_
    unfold join
    rw [if_neg (fun both => hne both.1), if_neg hne]
    split
    · exact isAbsolute_clean h
    · refine isAbsolute_clean ?_
      obtain ⟨c, cs, hchars⟩ := List.exists_cons_of_ne_nil (mt String.toList_eq_nil_iff.mp hne)
      rw [isAbsolute, hchars] at h
      rw [isAbsolute, String.toList_append, String.toList_append, hchars]
      exact h

theorem resolve_ofParts (h : Proper parts) (here : String) :
    (resolve here (ofParts parts)).text = ofParts parts := by
  rw [resolve, if_pos (isAbsolute_ofParts parts), ofText_ofParts h]
  rfl

/-! ### Parents -/

/-- What stands in front of the last part of a path, clean. The root is its own parent. -/
def parent (s : String) : String :=
  clean (String.ofList (s.toList.reverse.dropWhile (· != '/')).reverse)

theorem parent_root : parent (ofParts []) = ofParts [] := by decide

/-- **The parent of a directory is cut off in front of its name.** -/
theorem parent_ofParts {upper : List String} {name : String} (h : Proper (upper ++ [name])) :
    parent (ofParts (upper ++ [name])) = ofParts upper := by
  have entry : EntryName name := h name (by simp)
  have hstub : ∃ front, stub upper = front ++ ['/'] := by
    rcases List.eq_nil_or_concat upper with rfl | ⟨more, last, rfl⟩
    · exact ⟨[], rfl⟩
    · exact ⟨_, by rw [List.concat_eq_append, stub, List.flatMap_append, List.flatMap_singleton,
        ← List.append_assoc, ← List.cons_append]⟩
  obtain ⟨front, hfront⟩ := hstub
  have hskip : ∀ c ∈ name.toList.reverse, (c != '/') = true := by
    intro c hc
    rw [bne_iff_ne]
    rintro rfl
    exact entry.slash (List.mem_reverse.mp hc)
  have hcut : ((ofParts (upper ++ [name])).toList.reverse.dropWhile (· != '/')).reverse =
      stub upper := by
    rw [toList_ofParts_concat, List.reverse_append, List.dropWhile_append_of_pos hskip, hfront,
      List.reverse_append, List.reverse_singleton, List.singleton_append,
      List.dropWhile_cons_of_neg (by simp), List.reverse_cons, List.reverse_reverse]
  have hread : ofText (String.ofList (stub upper)) = ⟨true, upper⟩ := by
    have hend : (String.ofList (stub upper)).toList = stub upper ++ "".toList := by simp
    rw [ofText_stub (h.of_prefix (List.prefix_append ..)) (by decide) hend, enter_empty,
      List.reverse_reverse]
  rw [parent, hcut, clean, hread]
  rfl

theorem parent_ne {upper : List String} {name : String} (h : Proper (upper ++ [name])) :
    parent (ofParts (upper ++ [name])) ≠ ofParts (upper ++ [name]) := by
  rw [parent_ofParts h]
  intro heq
  have hlength := congrArg List.length
    (ofParts_injective (h.of_prefix (List.prefix_append ..)) h heq)
  simp at hlength

/-! ### Directories on the way to the root -/

/-- The directory `above` is `dir` or holds it at some depth. -/
def Encloses (above dir : String) : Prop :=
  ∃ upper parts, Proper parts ∧ upper <+: parts ∧ above = ofParts upper ∧ dir = ofParts parts

theorem encloses_ofParts (h : Proper parts) {above : String} :
    Encloses above (ofParts parts) ↔ ∃ upper, upper <+: parts ∧ above = ofParts upper := by
  constructor
  · rintro ⟨upper, others, hothers, hupper, rfl, heq⟩
    obtain rfl := ofParts_injective h hothers heq
    exact ⟨upper, hupper, rfl⟩
  · rintro ⟨upper, hupper, rfl⟩
    exact ⟨upper, parts, h, hupper, rfl, rfl⟩

/-- The directories from one up to the root, nearest first. -/
def upward (parts : List String) : List String :=
  (parts.inits.map ofParts).reverse

theorem upward_concat (upper : List String) (name : String) :
    upward (upper ++ [name]) = ofParts (upper ++ [name]) :: upward upper := by
  have hinits : (upper ++ [name]).inits = upper.inits ++ [upper ++ [name]] :=
    List.inits_append upper [name]
  rw [upward, hinits, List.map_append, List.reverse_append]
  rfl

end RegisterMachine.Path
