import RegisterMachine.CommandLine.Compile
import RegisterMachine.CommandLine.Run
import RegisterMachine.Proofs.Assembly.Limits
import RegisterMachine.Proofs.CommandLine.Recognition
import RegisterMachine.Proofs.Files.Writing
import RegisterMachine.Proofs.Machine.Stepping
import RegisterMachine.Proofs.Text.Decimal

/-!
# Compiled programs

Assembled code survives being stored in an image, and the image is found where the compile command
put it. A run of the source with an arena size and a run of the image without one therefore have the
same code. They have the same arena too, unless the size is zero, which an image cannot ask for.
-/

set_option autoImplicit false

namespace RegisterMachine

open Assembly Cbor Checks
open Decimal (FitsInt32)

/-! ### Assembled code in images -/

theorem Assembly.SlotFits.length_lt {kind : Option OperandKind} {token : String}
    (h : SlotFits kind token) : (Utf8.encode token).length < 2 ^ 63 := by
  have hregister : ∀ r : Register, (Utf8.encode r.name).length < 2 ^ 63 := by
    intro r
    cases r <;> decide
  have hnumber : ∀ n, FitsInt32 n → (Utf8.encode (Decimal.ofInt n)).length < 2 ^ 63 := by
    intro n hn
    have hbytes := Utf8.length_encode_le (Decimal.ofInt n)
    have hchars := Decimal.length_ofInt_le hn
    omega
  cases kind with
  | none =>
    obtain rfl : token = "" := h
    decide
  | some kind =>
    cases kind with
    | register | address =>
      obtain ⟨r, rfl⟩ := h
      exact hregister r
    | immediate | target =>
      obtain ⟨n, hn, rfl⟩ := h
      exact hnumber n hn

theorem Assembly.Canonical.fits {i : Instruction} (h : Canonical i) : i.Fits := by
  simp only [Instruction.Fits, Instruction.args, List.forall_mem_cons]
  exact ⟨(h.slots 0).length_lt, (h.slots 1).length_lt, (h.slots 2).length_lt, nofun⟩

theorem Opcode.number_le_of_isValid {op : Opcode} (h : op.isValid = true) : op.number ≤ 26 := by
  cases op with
  | undefined excess => cases h
  | _ => decide

/-- Every image starts with the head of a map of four fields. -/
theorem Image.write_eq (image : Image) : ∃ rest, image.write = 0xA4 :: rest :=
  ⟨_, rfl⟩

namespace CommandLine

section Images

variable {source : String} {code : List Instruction} (h : assemble source = .ok code)
include h

theorem instructions_image (memSize : Int64) :
    (Image.ofProgram memSize code).instructions = code :=
  Image.instructions_ofProgram fun i hi =>
    Opcode.number_le_of_isValid (canonical_of_assemble h i hi).valid

variable (hlen : code.length ≤ maxElements)
include hlen

/-- An image of assembled code is read as what was stored. -/
theorem read_image (memSize : Int64) :
    Image.read (Image.ofProgram memSize code).write = .ok (.ofProgram memSize code) := by
  have hcanonical := canonical_of_assemble h
  have hops : ∀ i ∈ code, i.op.number ≤ 26 :=
    fun i hi => Opcode.number_le_of_isValid (hcanonical i hi).valid
  exact Image.read_write_ofProgram hops (fun i hi => (hcanonical i hi).fits) hlen

/-- An image of assembled code is loaded as what was stored. -/
theorem Program.ofBytes_image (memSize : Int64) (path : String) :
    Program.ofBytes path (Image.ofProgram memSize code).write = .ok { memSize, code } := by
  have hlikely : Image.isLikely (Image.ofProgram memSize code).write = true := rfl
  simp only [Program.ofBytes, hlikely, if_true, read_image h hlen,
    instructions_image h]
  rfl

end Images

/-! ### The compile command -/

/-- The compile command made an image of one source file, which is still there afterwards. -/
structure Compiled (before : Tree) (arguments : List String) (path : String) (memSize : Int64)
    (bytes : List UInt8) (out : String) (after : Tree) : Prop where
  command : ∃ a, Arguments.ofList compileFlags arguments = .ok a ∧ a.rest = [path] ∧
    a.number? "mem" = some memSize ∧ outputPath ((a.text? "o").getD "build") path = out
  exit : (compile before arguments).exit = 0
  tree : (compile before arguments).tree = after
  source : after.readFile path = .ok bytes

theorem compileFiles_single {outDir path : String} {memSize : Int64} {shows : Bool}
    {r : CompileReport} (h : (compileFiles outDir memSize shows [path] r).exit = 0) :
    ∃ code, readSource r.tree path = .ok code ∧
      (Image.ofProgram memSize code).store r.tree (outputPath outDir path) =
        .ok (compileFiles outDir memSize shows [path] r).tree := by
  unfold compileFiles at h ⊢
  cases hcode : readSource r.tree path with
  | error e => simp [hcode] at h
  | ok code =>
    cases hstore : (Image.ofProgram memSize code).store r.tree (outputPath outDir path) with
    | error e => cases shows <;> simp [hcode, hstore] at h
    | ok tree => cases shows <;> exact ⟨code, rfl, by simp [hstore, compileFiles]⟩

theorem Compiled.stored {before after : Tree} {arguments : List String} {path out : String}
    {memSize : Int64} {bytes : List UInt8}
    (h : Compiled before arguments path memSize bytes out after) :
    ∃ middle code, readSource middle path = .ok code ∧
      (Image.ofProgram memSize code).store middle out = .ok after := by
  obtain ⟨⟨a, hargs, hrest, hsize, hout⟩, hexit, htree, -⟩ := h
  simp only [compile, hargs, hrest, hsize, Option.getD_some, reduceCtorEq, if_false] at hexit htree
  split at hexit
  · cases hexit
  · next middle hmiddle =>
    simp only [hmiddle] at htree
    obtain ⟨code, hcode, hstore⟩ := compileFiles_single hexit
    rw [htree, hout] at hstore
    exact ⟨middle, code, hcode, hstore⟩

/-- The image of a compiled program is loaded as that program with the size that was asked for. -/
theorem Compiled.load_image {before after : Tree} {arguments : List String} {path out : String}
    {memSize : Int64} {bytes : List UInt8} {code : List Instruction}
    (h : Compiled before arguments path memSize bytes out after)
    (assembled : assemble (Utf8.readable bytes) = .ok code) (hlen : code.length ≤ 131072) :
    Program.load after out = .ok { memSize, code } := by
  obtain ⟨middle, code', hsource, hstore⟩ := h.stored
  rw [Image.store] at hstore
  -- The source was there before the image was written: no image is a text.
  have hsource' : middle.readFile path = .ok bytes := by
    rcases Tree.readFile_of_writeFile hstore h.source with rfl | hread
    · obtain ⟨rest, hfirst⟩ := Image.write_eq (Image.ofProgram memSize code')
      rw [hfirst] at assembled
      exact absurd (ascii_of_assemble assembled) (by decide)
    · exact hread
  obtain rfl : code' = code := by
    rw [readSource, hsource'] at hsource
    simp only [assembled] at hsource
    exact (Except.ok.inj hsource).symm
  rw [Program.load_eq (Tree.readFile_writeFile hstore), Program.ofBytes_image assembled hlen]

/-! ### Runs -/

theorem mergeSettings_eq (t : Tree) (env : Environment) (a : Arguments) :
    mergeSettings t env a =
      (if (a.text? "config").getD "" = "" then Settings.find t "."
        else Settings.load t ((a.text? "config").getD "")).map fun file =>
          { file.override env with
            memSize := (a.number? "mem").getD (file.override env).memSize
            trace := (a.text? "trace").getD (file.override env).trace
            logLevel := (a.text? "log-level").getD (file.override env).logLevel
            traceDb := (a.text? "trace-db").getD (file.override env).traceDb } := by
  unfold mergeSettings
  dsimp only
  split
  · cases Settings.find t "." <;> rfl
  · cases Settings.load t ((a.text? "config").getD "") <;> rfl

/-- The settings of a command line are accepted. -/
structure Accepted (t : Tree) (env : Environment) (a : Arguments) (s : Settings)
    (mode : TraceMode) (level : Journal.Level) : Prop where
  merged : mergeSettings t env a = .ok s
  valid : s.validate = .ok ()
  mode : s.traceMode = .ok mode
  level : Journal.Level.ofName? s.logLevel = some level

/-- The arena size of a run: that of its image, unless there is none or a flag is given. -/
def arenaSize (a : Arguments) (s : Settings) (program : Program) : Int64 :=
  if 0 < program.memSize ∧ (a.number? "mem").isNone then program.memSize else s.memSize

/-- The job that a run makes of a loaded program. -/
def Job.ofProgram (path : String) (a : Arguments) (s : Settings) (mode : TraceMode)
    (level : Journal.Level) (program : Program) : Job :=
  { path, mode, level, memSize := arenaSize a s program, code := program.code,
    disassembles := a.isOn "disasm", traceDb := s.traceDb }

theorem Accepted.prepare {t : Tree} {env : Environment} {a : Arguments} {s : Settings}
    {mode : TraceMode} {level : Journal.Level} (h : Accepted t env a s mode level)
    {arguments : List String} {path : String} (hargs : Arguments.ofList runFlags arguments = .ok a)
    (hrest : a.rest = [path]) :
    Job.prepare t env arguments =
      ((Program.load t path).mapError RunError.program).map
        (Job.ofProgram path a s mode level) := by
  simp only [Job.prepare, hargs, hrest, h.merged, h.valid, h.mode, h.level, Except.mapError,
    ok_bind]
  cases Program.load t path <;> rfl

/-- Text brings no arena size along. -/
theorem arenaSize_text (a : Arguments) (s : Settings) (code : List Instruction) :
    arenaSize a s { code } = s.memSize :=
  if_neg fun hpositive => absurd hpositive.1 (show ¬ (0 : Int64) < 0 by decide)

/-- Two command lines that run different files. Only the first gives an arena size, and all other
flags are the same. -/
structure Counterparts (memSize : Int64) (path₁ path₂ : String)
    (arguments₁ arguments₂ : List String) (a b : Arguments) : Prop where
  parsed₁ : Arguments.ofList runFlags arguments₁ = .ok a
  parsed₂ : Arguments.ofList runFlags arguments₂ = .ok b
  rest₁ : a.rest = [path₁]
  rest₂ : b.rest = [path₂]
  sized : a.given.lookup "mem" = some (.number memSize)
  unsized : b.given.lookup "mem" = none
  others : ∀ name, name ≠ "mem" → a.given.lookup name = b.given.lookup name

section Counterparts

variable {t : Tree} {env : Environment} {memSize : Int64} {path₁ path₂ : String}
  {arguments₁ arguments₂ : List String} {a b : Arguments} {s : Settings} {mode : TraceMode}
  {level : Journal.Level} (h : Counterparts memSize path₁ path₂ arguments₁ arguments₂ a b)
include h

theorem Counterparts.text? {name : String} (hname : name ≠ "mem") :
    a.text? name = b.text? name := by
  rw [Arguments.text?, Arguments.text?, h.others name hname]

theorem Counterparts.isOn {name : String} (hname : name ≠ "mem") : a.isOn name = b.isOn name := by
  rw [Arguments.isOn, Arguments.isOn, h.others name hname]

theorem Counterparts.number? : a.number? "mem" = some memSize ∧ b.number? "mem" = none := by
  rw [Arguments.number?, Arguments.number?, h.sized, h.unsized]
  exact ⟨rfl, rfl⟩

/-- Where the second command line is accepted the first is, with its own arena size. -/
theorem Counterparts.accepted (hsize : 0 ≤ memSize) (accepted : Accepted t env b s mode level) :
    Accepted t env a { s with memSize } mode level := by
  obtain ⟨hmerged, -, hmode, hlevel⟩ := accepted
  refine ⟨?_, ?_, hmode, hlevel⟩
  · have hconfig := h.text? (show "config" ≠ "mem" by decide)
    have htrace := h.text? (show "trace" ≠ "mem" by decide)
    have hlog := h.text? (show "log-level" ≠ "mem" by decide)
    have hdb := h.text? (show "trace-db" ≠ "mem" by decide)
    rw [mergeSettings_eq] at hmerged ⊢
    rw [hconfig, htrace, hlog, hdb, h.number?.1]
    generalize (if (b.text? "config").getD "" = "" then Settings.find t "."
      else Settings.load t ((b.text? "config").getD "")) = file? at hmerged ⊢
    cases file? with
    | error e => cases hmerged
    | ok file =>
      obtain rfl := Except.ok.inj hmerged
      rfl
  · rw [Settings.validate, if_neg (Int64.not_lt.mpr hsize)]
    change s.traceMode.map _ = _
    rw [hmode]
    rfl

/-- An image brings its arena size along unless that is zero. -/
theorem Counterparts.arenaSize_image (hsize : 0 ≤ memSize) (s : Settings)
    (code : List Instruction) :
    arenaSize b s { memSize, code } = if memSize = 0 then s.memSize else memSize := by
  simp only [arenaSize, h.number?.2, Option.isNone_none, and_true]
  split
  · next hpositive =>
    rw [if_neg]
    rintro rfl
    exact absurd hpositive (by decide)
  · next hpositive =>
    rw [if_pos]
    exact Int64.le_antisymm (Int64.not_lt.mp hpositive) hsize

/-- The jobs of both command lines, if the first finds the program as text and the second as an
image. -/
theorem Counterparts.job_eq (hsize : 0 ≤ memSize) (hzero : memSize = 0 → s.memSize = 0)
    (code : List Instruction) :
    Job.ofProgram path₂ b s mode level { memSize, code } =
      { Job.ofProgram path₁ a { s with memSize } mode level { code } with path := path₂ } := by
  have hmem : arenaSize b s { memSize, code } = memSize := by
    rw [h.arenaSize_image hsize]
    split
    · next hm => rw [hzero hm, hm]
    · rfl
  simp only [Job.ofProgram, hmem, arenaSize_text, h.isOn (show "disasm" ≠ "mem" by decide)]

end Counterparts

/-- Both command lines run this code in an arena of this size, and their jobs differ only in the
path. -/
def SameJob (t : Tree) (env : Environment) (arguments₁ arguments₂ : List String) (path₂ : String)
    (memSize : Int64) (code : List Instruction) : Prop :=
  ∃ job : Job, job.memSize = memSize ∧ job.code = code ∧ Job.prepare t env arguments₁ = .ok job ∧
    Job.prepare t env arguments₂ = .ok { job with path := path₂ }

/-- Two runs that are the same but for the program that their journals name. -/
structure SameRun (level : Journal.Level) (id : RunId) (path₁ path₂ : String)
    (r₁ r₂ : Report) : Prop where
  report : r₁ = { r₂ with journal := r₁.journal }
  journal : ∃ (events : List Event) (closing : List Journal.Entry),
    r₁.journal =
      Journal.write true level (events.flatMap (Journal.entries path₁ id) ++ closing) ∧
    r₂.journal =
      Journal.write true level (events.flatMap (Journal.entries path₂ id) ++ closing)

/-- Runs without a journal. -/
theorem SameRun.refl {level : Journal.Level} {id : RunId} {path₁ path₂ : String} {r : Report}
    (h : r.journal = []) : SameRun level id path₁ path₂ r r :=
  ⟨rfl, [], [], h, h⟩

/-- Only the journal looks at the path of a job. -/
theorem Job.perform_path (fuel : Nat) (id : RunId) (t : Tree) (job : Job) (path : String) :
    SameRun job.level id job.path path (job.perform fuel id t)
      (Job.perform fuel id t { job with path }) := by
  unfold Job.perform
  by_cases hshows : job.disassembles = true
  · simp only [hshows, if_true]
    exact .refl rfl
  · simp only [if_neg hshows]
    rw [show Job.openRecord { job with path } t = job.openRecord t from rfl]
    rcases job.openRecord t with ⟨stores, e | recorder⟩
    · exact .refl rfl
    · exact ⟨rfl, (job.session.run fuel).reached.hooks.toList, _, rfl, rfl⟩

section Main

variable {before after : Tree} {arguments : List String} {path out : String} {memSize : Int64}
  {bytes : List UInt8} {code : List Instruction} {env : Environment}
  {arguments₁ arguments₂ : List String} {a b : Arguments} {s : Settings} {mode : TraceMode}
  {level : Journal.Level}

/-- **A compiled program runs like its source**, with the same code in an arena of the same size and
so with the same output, dumps, record and end, exactly if the source is not mistaken for an image
and either the size is not zero or it is zero in the settings too. A source that is mistaken is not
run at all, and an image of size zero gets the size in the settings. -/
theorem compiled_run (compiled : Compiled before arguments path memSize bytes out after)
    (assembled : assemble (Utf8.readable bytes) = .ok code) (hlen : code.length ≤ 131072)
    (hsize : 0 ≤ memSize) (pair : Counterparts memSize path out arguments₁ arguments₂ a b)
    (accepted : Accepted after env b s mode level) :
    (SameJob after env arguments₁ arguments₂ out memSize code ↔
        Image.isLikely bytes = false ∧ (memSize = 0 → s.memSize = 0)) ∧
      (Image.isLikely bytes = false → (memSize = 0 → s.memSize = 0) →
        ∀ fuel id, SameRun level id path out (run fuel id after env arguments₁)
          (run fuel id after env arguments₂)) ∧
      (Image.isLikely bytes = true →
        ∃ e, Job.prepare after env arguments₁ = .error (.program (.image path e))) ∧
      ∃ job, Job.prepare after env arguments₂ = .ok job ∧ job.code = code ∧
        job.memSize = if memSize = 0 then s.memSize else memSize := by
  have prepared₁ := (pair.accepted hsize accepted).prepare pair.parsed₁ pair.rest₁
  have prepared₂ := accepted.prepare pair.parsed₂ pair.rest₂
  rw [Program.load_eq compiled.source] at prepared₁
  rw [compiled.load_image assembled hlen] at prepared₂
  have hmem := pair.arenaSize_image hsize s code
  have hmistaken : Image.isLikely bytes = true →
      ∃ e, Job.prepare after env arguments₁ = .error (.program (.image path e)) := by
    intro hlikely
    obtain ⟨e, he⟩ : ∃ e, Program.ofBytes path bytes = .error (.image path e) :=
      Program.ofBytes_mistaken assembled hlikely
    rw [he] at prepared₁
    exact ⟨e, prepared₁⟩
  have hsame : SameJob after env arguments₁ arguments₂ out memSize code ↔
      Image.isLikely bytes = false ∧ (memSize = 0 → s.memSize = 0) := by
    constructor
    · rintro ⟨job, hjob, -, h₁, h₂⟩
      constructor
      · refine Bool.eq_false_iff.mpr fun hlikely => ?_
        obtain ⟨e, he⟩ := hmistaken hlikely
        rw [h₁] at he
        cases he
      · intro hzero
        rw [prepared₂] at h₂
        have hjob₂ : arenaSize b s { memSize, code } = job.memSize :=
          congrArg Job.memSize (Except.ok.inj h₂)
        rw [← hzero, ← hjob, ← hjob₂, hmem, if_pos hzero]
    · rintro ⟨hlikely, hzero⟩
      rw [Program.ofBytes_text assembled hlikely] at prepared₁
      refine ⟨_, arenaSize_text a { s with memSize } code, rfl, prepared₁, ?_⟩
      rw [prepared₂, ← pair.job_eq hsize hzero]
      rfl
  refine ⟨hsame, fun hlikely hzero fuel id => ?_, hmistaken, _, prepared₂, rfl, hmem⟩
  rw [Program.ofBytes_text assembled hlikely] at prepared₁
  rw [run, run, prepared₁, prepared₂]
  have hpaths := Job.perform_path fuel id after
    (Job.ofProgram path a { s with memSize } mode level { code }) out
  rwa [← pair.job_eq hsize hzero] at hpaths

end Main

/-- Prints one letter. -/
def letterSource : String :=
  "li $t1 65\nprintchar $t1\nhalt\n"

def letterCode : List Instruction :=
  [{ op := .li, arg1 := "$t1", arg2 := "65" }, { op := .printchar, arg1 := "$t1" }, { op := .halt }]

def letterTree : Tree :=
  { nodes := [(["p.svm"], .file (Utf8.encode letterSource))] }

/-- The tree with the source and its image of the given size. -/
def letterCompiled (size : String) : Tree :=
  (compile letterTree ["-mem", size, "p.svm"]).tree

theorem compiled_letter : Compiled letterTree ["-mem", "8", "p.svm"] "p.svm" 8
    (Utf8.encode letterSource) "build/p.svmb" (letterCompiled "8") where
  command := ⟨{ given := [("mem", .number 8)], rest := ["p.svm"] }, by decide +kernel⟩
  exit := by decide +kernel
  tree := rfl
  source := by decide +kernel

theorem counterparts_letter : Counterparts 8 "p.svm" "build/p.svmb"
    ["-trace", "summary", "-mem", "8", "p.svm"] ["-trace", "summary", "build/p.svmb"]
    { given := [("mem", .number 8), ("trace", .text "summary")], rest := ["p.svm"] }
    { given := [("trace", .text "summary")], rest := ["build/p.svmb"] } where
  parsed₁ := by decide +kernel
  parsed₂ := by decide +kernel
  rest₁ := rfl
  rest₂ := rfl
  sized := rfl
  unsized := rfl
  others := fun name hname => by simp only [List.lookup_cons, beq_false_of_ne hname]

/-- The environment asks for another size than the image does. -/
theorem accepted_letter : Accepted (letterCompiled "8") [("SVM_MEM_SIZE", "3")]
    { given := [("trace", .text "summary")], rest := ["build/p.svmb"] }
    { memSize := 3, trace := "summary" } .summary .info where
  merged := by decide +kernel
  valid := by decide +kernel
  mode := by decide +kernel
  level := by decide +kernel

theorem compiled_run_letter :
    SameJob (letterCompiled "8") [("SVM_MEM_SIZE", "3")]
        ["-trace", "summary", "-mem", "8", "p.svm"] ["-trace", "summary", "build/p.svmb"]
        "build/p.svmb" 8 letterCode ∧
      ∀ fuel id, SameRun .info id "p.svm" "build/p.svmb"
        (run fuel id (letterCompiled "8") [("SVM_MEM_SIZE", "3")]
          ["-trace", "summary", "-mem", "8", "p.svm"])
        (run fuel id (letterCompiled "8") [("SVM_MEM_SIZE", "3")]
          ["-trace", "summary", "build/p.svmb"]) := by
  have assembled : assemble (Utf8.readable (Utf8.encode letterSource)) = .ok letterCode := by
    decide +kernel
  have hlikely : Image.isLikely (Utf8.encode letterSource) = false := by decide +kernel
  obtain ⟨hsame, hruns, -⟩ := compiled_run compiled_letter assembled (by decide) (by decide)
    counterparts_letter accepted_letter
  exact ⟨hsame.mpr ⟨hlikely, nofun⟩, hruns hlikely nofun⟩

/-- What a command line runs. -/
def prepared? (t : Tree) (env : Environment) (arguments : List String) :
    Option (Int64 × List Instruction) :=
  (Job.prepare t env arguments).toOption.map fun job => (job.memSize, job.code)

/-- **A size of zero is forgotten.** The source has no room for its stack and stops at once, but its
image gets the size in the environment and runs to its end. -/
theorem compiled_zero_forgotten :
    (compile letterTree ["-mem", "0", "p.svm"]).exit = 0 ∧
      prepared? (letterCompiled "0") [("SVM_MEM_SIZE", "8")] ["-mem", "0", "p.svm"] =
        some (0, letterCode) ∧
      prepared? (letterCompiled "0") [("SVM_MEM_SIZE", "8")] ["build/p.svmb"] =
        some (8, letterCode) ∧
      (((Machine.load 0 letterCode.toArray).after? .off 1).bind Machine.fault?).map Fault.message =
        some "MemoryAccessFault at pc 0: heap and stack collided: hp=0 heap=-1 sp=0" ∧
      ((Machine.load 8 letterCode.toArray).after? .off 3).map (·.status) = some .halted := by
  refine ⟨?_, ?_, ?_, ?_, ?_⟩ <;> decide +kernel

end CommandLine

end RegisterMachine
