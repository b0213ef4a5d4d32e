import RegisterMachine.Proofs.CommandLine.Compiled
import RegisterMachine.Proofs.Files.Paths

/-!
# Images that replace each other

The compile command names an image after the last part of the path of its source, so sources from
different directories or with different extensions may share an image. The last of them is kept and
the others are lost without notice. Images are never mistaken for sources: what is compiled is what
was there before.
-/

set_option autoImplicit false

namespace RegisterMachine.CommandLine

open Assembly Checks

/-- A program file with the code that it assembles to. -/
structure SourceFile where
  path : String
  code : List Instruction

namespace SourceFile

/-- The name that the image of a source has apart from its extension. -/
def stem (s : SourceFile) : String :=
  Path.stem s.path

/-- What is printed about a source. -/
def report (outDir : String) (shows : Bool) (s : SourceFile) : String :=
  (if shows then showProgram s.path s.code else "") ++ s.path ++ " -> "
    ++ outputPath outDir s.path ++ "\n"

/-- The file at the output path of the source is an image of its code. -/
def Kept (t : Tree) (outDir : String) (memSize : Int64) (s : SourceFile) : Prop :=
  ∃ image, Image.fetch t (outputPath outDir s.path) = .ok image ∧ image.memSize = memSize ∧
    image.instructions = s.code

end SourceFile

/-! ### The loop -/

/-- The sources are compiled one after the other, each in the tree that the one before left. -/
inductive Compiles (outDir : String) (memSize : Int64) : List SourceFile → Tree → Tree → Prop
  | done (t : Tree) : Compiles outDir memSize [] t t
  | file {s : SourceFile} {rest : List SourceFile} {t u v : Tree}
      (source : readSource t s.path = .ok s.code)
      (stored : (Image.ofProgram memSize s.code).store t (outputPath outDir s.path) = .ok u)
      (later : Compiles outDir memSize rest u v) : Compiles outDir memSize (s :: rest) t v

/-- **A compilation that succeeds has compiled every file**, and has printed where its image is. -/
theorem compiles_of_exit {outDir : String} {memSize : Int64} {shows : Bool} {paths : List String}
    {r : CompileReport} (h : (compileFiles outDir memSize shows paths r).exit = 0) :
    ∃ sources : List SourceFile, sources.map (·.path) = paths ∧
      Compiles outDir memSize sources r.tree (compileFiles outDir memSize shows paths r).tree ∧
      (compileFiles outDir memSize shows paths r).stdout =
        r.stdout ++ String.join (sources.map (·.report outDir shows)) := by
  induction paths generalizing r with
  | nil => exact ⟨[], rfl, .done _, String.append_empty.symm⟩
  | cons path rest ih =>
    rw [compileFiles] at h ⊢
    cases hcode : readSource r.tree path with
    | error e => simp [hcode] at h
    | ok code =>
      simp only [hcode] at h ⊢
      have htree : (if shows then { r with stdout := r.stdout ++ showProgram path code }
          else r).tree = r.tree := by split <;> rfl
      have hout : (if shows then { r with stdout := r.stdout ++ showProgram path code }
          else r).stdout = r.stdout ++ (if shows then showProgram path code else "") := by
        split
        · rfl
        · exact String.append_empty.symm
      rw [htree] at h ⊢
      cases hstore : (Image.ofProgram memSize code).store r.tree (outputPath outDir path) with
      | error e => simp [hstore] at h
      | ok tree =>
        simp only [hstore] at h ⊢
        obtain ⟨sources, hpaths, compiled, hstdout⟩ := ih h
        refine ⟨⟨path, code⟩ :: sources, by rw [List.map_cons, hpaths],
          .file hcode hstore compiled, ?_⟩
        rw [hstdout, hout, List.map_cons, String.join_cons, SourceFile.report]
        simp only [String.append_assoc]

section Loop

variable {outDir : String} {memSize : Int64} {t u v : Tree} {path : String}
  {code : List Instruction}

theorem readSource_eq_ok : readSource t path = .ok code ↔
    ∃ bytes, t.readFile path = .ok bytes ∧ assemble (Utf8.readable bytes) = .ok code := by
  unfold readSource
  cases hread : t.readFile path with
  | error e => simp
  | ok bytes =>
    cases hassemble : assemble (Utf8.readable bytes) with
    | error e => simp [hassemble]
    | ok other => simp [hassemble]

/-- A source that is read after an image was written was there before: no image is a text. -/
theorem readSource_of_store {other : List Instruction} {out : String}
    (stored : (Image.ofProgram memSize other).store t out = .ok u)
    (h : readSource u path = .ok code) : readSource t path = .ok code := by
  obtain ⟨bytes, hread, assembled⟩ := readSource_eq_ok.mp h
  rw [Image.store] at stored
  rcases Tree.readFile_of_writeFile stored hread with rfl | hread
  · obtain ⟨rest, hfirst⟩ := Image.write_eq (Image.ofProgram memSize other)
    rw [hfirst] at assembled
    exact absurd (ascii_of_assemble assembled) (by decide)
  · exact readSource_eq_ok.mpr ⟨bytes, hread, assembled⟩

/-- The file name of an image is an entry of its directory. -/
theorem entryName_output (h : readSource t path = .ok code) :
    Path.EntryName (Path.stem path ++ Image.extension) := by
  obtain ⟨bytes, hread, -⟩ := readSource_eq_ok.mp h
  have hslash := Tree.slash_notMem_stem hread
  have hlong : 5 ≤ (Path.stem path ++ Image.extension).toList.length := by
    rw [String.toList_append, List.length_append]
    exact Nat.le_add_left 5 _
  refine ⟨?_, ?_, ?_, ?_⟩
  · rw [String.toList_append, List.mem_append]
    exact not_or.mpr ⟨hslash, by decide⟩
  all_goals
    intro he
    rw [he] at hlong
    exact absurd hlong (by decide)

/-- An image is at a place with its own name. -/
theorem getLast?_output (entry : Path.EntryName (Path.stem path ++ Image.extension))
    {place : Place} (h : t.locate (outputPath outDir path) = .ok place) :
    place.getLast? = some (Path.stem path ++ Image.extension) :=
  Tree.getLast?_locate (Path.endsIn_join outDir entry) entry h

namespace Compiles

variable {s : SourceFile} {sources earlier later : List SourceFile}

theorem split (h : Compiles outDir memSize (earlier ++ later) t v) :
    ∃ u, Compiles outDir memSize earlier t u ∧ Compiles outDir memSize later u v := by
  induction earlier generalizing t with
  | nil => exact ⟨t, .done t, h⟩
  | cons s rest ih =>
    cases h with
    | file source stored h =>
      obtain ⟨u, first, second⟩ := ih h
      exact ⟨u, .file source stored first, second⟩

/-- Every source is what it was at the beginning. -/
theorem source (h : Compiles outDir memSize sources t v) :
    ∀ s ∈ sources, readSource t s.path = .ok s.code := by
  induction h with
  | done => exact nofun
  | file source stored later ih =>
    refine List.forall_mem_cons.mpr ⟨source, fun s hs => ?_⟩
    exact readSource_of_store stored (ih s hs)

/-- A file is not touched by images with other names. -/
theorem readFile_output (h : Compiles outDir memSize sources t v) {bytes : List UInt8}
    (entry : Path.EntryName (Path.stem path ++ Image.extension))
    (others : ∀ s ∈ sources, s.stem ≠ Path.stem path)
    (hread : t.readFile (outputPath outDir path) = .ok bytes) :
    v.readFile (outputPath outDir path) = .ok bytes := by
  induction h with
  | done => exact hread
  | @file s rest t u v source stored later ih =>
    obtain ⟨hother, hrest⟩ := List.forall_mem_cons.mp others
    refine ih hrest ?_
    obtain ⟨place, written⟩ := Tree.written_of_writeFile stored
    obtain ⟨q, hq⟩ := Tree.locate_of_readFile hread
    have hname := getLast?_output (entryName_output source) written.located
    have hne : q ≠ place := by
      rintro rfl
      rw [getLast?_output entry hq, Option.some.injEq] at hname
      exact hother ((String.append_left_inj _).mp hname).symm
    rw [written.readFile_of_ne hq hne, hread]

/-- **The last of the sources with a name has its image kept.** -/
theorem readFile_last (h : Compiles outDir memSize (earlier ++ s :: later) t v)
    (last : ∀ s' ∈ later, s'.stem ≠ s.stem) :
    v.readFile (outputPath outDir s.path) = .ok (Image.ofProgram memSize s.code).write := by
  obtain ⟨u, -, rest⟩ := h.split
  cases rest with
  | file source stored rest =>
    exact rest.readFile_output (entryName_output source) last (Tree.readFile_writeFile stored)

end Compiles

end Loop

/-! ### Images kept -/

/-- What is left of the images of `sources` in the tree `after`. -/
structure KeepsLast (after : Tree) (outDir : String) (memSize : Int64)
    (sources : List SourceFile) : Prop where
  last : ∀ {earlier : List SourceFile} {s : SourceFile} {later : List SourceFile},
    sources = earlier ++ s :: later → (∀ s' ∈ later, s'.stem ≠ s.stem) →
      s.Kept after outDir memSize
  /-- All programs are kept exactly if those that share a name are the same. -/
  all_iff : (∀ s ∈ sources, s.Kept after outDir memSize) ↔
    ∀ s ∈ sources, ∀ s' ∈ sources, s.stem = s'.stem → s.code = s'.code

theorem SourceFile.exists_last {sources : List SourceFile} {s : SourceFile} (h : s ∈ sources) :
    ∃ earlier s' later, sources = earlier ++ s' :: later ∧ s'.stem = s.stem ∧
      ∀ other ∈ later, other.stem ≠ s'.stem := by
  induction sources generalizing s with
  | nil => cases h
  | cons first rest ih =>
    by_cases hrest : ∃ s' ∈ rest, s'.stem = s.stem
    · obtain ⟨s', hs', hstem⟩ := hrest
      obtain ⟨earlier, found, later, rfl, hfound, hlast⟩ := ih hs'
      exact ⟨first :: earlier, found, later, rfl, hfound.trans hstem, hlast⟩
    · rcases List.mem_cons.mp h with rfl | hs
      · exact ⟨[], s, rest, rfl, rfl, fun other hother he => hrest ⟨other, hother, he⟩⟩
      · exact absurd ⟨s, hs, rfl⟩ hrest

section Kept

variable {outDir : String} {memSize : Int64} {t after : Tree} {s s' : SourceFile}

theorem SourceFile.kept_of_readFile (source : readSource t s.path = .ok s.code)
    (small : s.code.length ≤ 131072)
    (h : after.readFile (outputPath outDir s.path) =
      .ok (Image.ofProgram memSize s.code).write) : s.Kept after outDir memSize := by
  obtain ⟨bytes, -, assembled⟩ := readSource_eq_ok.mp source
  refine ⟨.ofProgram memSize s.code, ?_, rfl, instructions_image assembled memSize⟩
  simp only [Image.fetch, h, read_image assembled small]

theorem outputPath_congr (outDir : String) (hstem : s.stem = s'.stem) :
    outputPath outDir s.path = outputPath outDir s'.path :=
  congrArg (fun stem => Path.join outDir (stem ++ Image.extension)) hstem

/-- A file holds one program. -/
theorem SourceFile.Kept.code_eq (h : s.Kept after outDir memSize)
    (h' : s'.Kept after outDir memSize) (hstem : s.stem = s'.stem) : s.code = s'.code := by
  obtain ⟨image, hfetch, -, hcode⟩ := h
  obtain ⟨image', hfetch', -, hcode'⟩ := h'
  rw [outputPath_congr outDir hstem, hfetch'] at hfetch
  obtain rfl := Except.ok.inj hfetch
  exact hcode.symm.trans hcode'

theorem SourceFile.Kept.of_same (h : s.Kept after outDir memSize) (hstem : s.stem = s'.stem)
    (hcode : s.code = s'.code) : s'.Kept after outDir memSize := by
  rwa [SourceFile.Kept, outputPath_congr outDir hstem, hcode] at h

theorem Compiles.keepsLast {sources : List SourceFile}
    (h : Compiles outDir memSize sources t after)
    (small : ∀ s ∈ sources, s.code.length ≤ 131072) : KeepsLast after outDir memSize sources := by
  have hlast : ∀ {earlier : List SourceFile} {s : SourceFile} {later : List SourceFile},
      sources = earlier ++ s :: later → (∀ s' ∈ later, s'.stem ≠ s.stem) →
        s.Kept after outDir memSize := by
    rintro earlier s later rfl last
    have hs : s ∈ earlier ++ s :: later := List.mem_append_right _ List.mem_cons_self
    exact SourceFile.kept_of_readFile (h.source s hs) (small s hs) (h.readFile_last last)
  refine ⟨hlast, ?_⟩
  constructor
  · intro kept s hs s' hs' hstem
    exact (kept s hs).code_eq (kept s' hs') hstem
  · intro same s hs
    obtain ⟨earlier, s', later, hsplit, hstem, last⟩ := SourceFile.exists_last hs
    have hs' : s' ∈ sources := by
      rw [hsplit]
      exact List.mem_append_right _ List.mem_cons_self
    exact (hlast hsplit last).of_same hstem (same s' hs' s hs hstem)

end Kept

/-- **The compile command keeps the last program of each name.** If it succeeds, it has compiled
each of its files as found once the output directory is made, and has printed the path of each
image. It keeps all programs exactly if those whose paths have the same last part, up to the
extension, are the same. -/
theorem compile_keeps_iff {before : Tree} {arguments : List String} {a : Arguments}
    (parsed : Arguments.ofList compileFlags arguments = .ok a)
    (success : (compile before arguments).exit = 0) :
    ∃ (middle : Tree) (sources : List SourceFile),
      before.makeDirectories ((a.text? "o").getD "build") = .ok middle ∧
      (∀ path code, readSource before path = .ok code → readSource middle path = .ok code) ∧
      sources.map (·.path) = a.rest ∧
      (∀ s ∈ sources, readSource middle s.path = .ok s.code) ∧
      (compile before arguments).stdout = String.join
        (sources.map (·.report ((a.text? "o").getD "build") (a.isOn "disasm"))) ∧
      ((∀ s ∈ sources, s.code.length ≤ 131072) →
        KeepsLast (compile before arguments).tree ((a.text? "o").getD "build")
          ((a.number? "mem").getD 10000) sources) := by
  simp only [compile, parsed] at success ⊢
  split at success
  · cases success
  · next hrest =>
    rw [if_neg hrest]
    cases made : before.makeDirectories ((a.text? "o").getD "build") with
    | error e => simp [made] at success
    | ok middle =>
      simp only [made] at success ⊢
      obtain ⟨sources, hpaths, compiled, hstdout⟩ := compiles_of_exit success
      refine ⟨middle, sources, rfl, ?_, hpaths, compiled.source, ?_, compiled.keepsLast⟩
      · intro path code h
        obtain ⟨bytes, hread, assembled⟩ := readSource_eq_ok.mp h
        exact readSource_eq_ok.mpr ⟨bytes, Tree.readFile_makeDirectories made hread, assembled⟩
      · rw [hstdout]
        exact String.empty_append

/-- Two programs of the same name in different directories, and another program beside them. -/
def namesakes (second : String) : Tree :=
  { nodes :=
      [(["a"], .directory), (["a", "p.svm"], .file (Utf8.encode "halt\n")), (["b"], .directory),
        (["b", "p.txt"], .file (Utf8.encode second)),
        (["q.svm"], .file (Utf8.encode "pop\nhalt\n"))] }

/-- The programs of the two names. -/
def namesakeCode (stem : String) : List Instruction :=
  if stem = "p" then [{ op := .halt }] else [{ op := .pop }, { op := .halt }]

def namesakeArguments : Arguments where
  given := [("mem", .number 7)]
  rest := ["a/p.svm", "q.svm", "b/p.txt"]

/-- Namesakes with the same code are kept, and so is the program compiled between them. -/
theorem compile_keeps_iff_namesakes :
    ∃ (report : CompileReport) (sources : List SourceFile),
      report = compile (namesakes "; the same\nhalt")
        ["-mem", "7", "a/p.svm", "q.svm", "b/p.txt"] ∧
      report.exit = 0 ∧ sources.map (·.path) = ["a/p.svm", "q.svm", "b/p.txt"] ∧
      ∀ s ∈ sources, s.code = namesakeCode s.stem ∧ s.Kept report.tree "build" 7 := by
  have parsed : Arguments.ofList compileFlags ["-mem", "7", "a/p.svm", "q.svm", "b/p.txt"] =
      .ok namesakeArguments := by decide +kernel
  have hsource : ∀ path ∈ namesakeArguments.rest,
      (readSource (namesakes "; the same\nhalt") path).toOption =
        some (namesakeCode (Path.stem path)) := by decide +kernel
  have success : (compile (namesakes "; the same\nhalt")
      ["-mem", "7", "a/p.svm", "q.svm", "b/p.txt"]).exit = 0 := by decide +kernel
  obtain ⟨middle, sources, -, kept, hpaths, hcode, -, outcome⟩ := compile_keeps_iff parsed success
  have hcodes : ∀ s ∈ sources, s.code = namesakeCode s.stem := by
    intro s hs
    have hpath : s.path ∈ namesakeArguments.rest := by
      rw [← hpaths]
      exact List.mem_map_of_mem hs
    have hbefore := kept _ _ (toOption_eq_some.mp (hsource s.path hpath))
    exact Except.ok.inj ((hcode s hs).symm.trans hbefore)
  have small : ∀ s ∈ sources, s.code.length ≤ 131072 := by
    intro s hs
    rw [hcodes s hs, namesakeCode]
    split <;> decide
  have hall := (outcome small).all_iff.mpr fun s hs s' hs' hstem => by
    rw [hcodes s hs, hcodes s' hs', hstem]
  exact ⟨_, sources, rfl, success, hpaths, fun s hs => ⟨hcodes s hs, hall s hs⟩⟩

/-- **A program is lost without notice.** Both files are reported as compiled, but the image is that
of the second. -/
theorem compile_loses_namesake :
    (compile (namesakes "pop\nhalt\n") ["a/p.svm", "b/p.txt"]).exit = 0 ∧
      (compile (namesakes "pop\nhalt\n") ["a/p.svm", "b/p.txt"]).stdout =
        "a/p.svm -> build/p.svmb\nb/p.txt -> build/p.svmb\n" ∧
      (readSource (namesakes "pop\nhalt\n") "a/p.svm").toOption = some [{ op := .halt }] ∧
      (Image.fetch (compile (namesakes "pop\nhalt\n") ["a/p.svm", "b/p.txt"]).tree
          "build/p.svmb").toOption.map Image.instructions =
        some [{ op := .pop }, { op := .halt }] := by
  refine ⟨?_, ?_, ?_, ?_⟩ <;> decide +kernel

end RegisterMachine.CommandLine
