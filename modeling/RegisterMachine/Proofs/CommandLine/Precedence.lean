import Mathlib.Data.List.Induction
import RegisterMachine.Proofs.CommandLine.Compiled
import RegisterMachine.Proofs.CommandLine.Loading

/-!
# Where a setting comes from

A run takes each of its settings from the first source that has it: the flag, the environment, the
settings file, the default. The sources are looked at one setting at a time, so what one of them
says about one setting has no influence on another. Only what comes out of the merge is checked,
before the program is looked at; the size that an image asks for comes in behind that check.
-/

set_option autoImplicit false

namespace RegisterMachine

open Checks

/-- The first of three sources that has a value, or else the default. -/
def layered {α : Type} (flag environment file : Option α) (default : α) : α :=
  ((flag.or environment).or file).getD default

/-! ### The environment -/

namespace Environment

variable (env : Environment) (name : String)

/-- The text of a variable that is set and not empty. -/
def text? : Option String :=
  (env.lookup name).filter (· ≠ "")

/-- The number in a variable that is set, not empty and denotes one. -/
def number? : Option Int64 :=
  (env.text? name).bind fun value => (Literal.readInt64 value).toOption

theorem textOr_eq (fallback : String) :
    env.textOr name fallback = (env.text? name).getD fallback := by
  unfold textOr text?
  cases env.lookup name with
  | none => rfl
  | some value => by_cases h : value = "" <;> simp [Option.filter, h]

theorem numberOr_eq (fallback : Int64) :
    env.numberOr name fallback = (env.number? name).getD fallback := by
  unfold numberOr number? text?
  cases env.lookup name with
  | none => rfl
  | some value =>
    by_cases h : value = ""
    · have hempty : Literal.readInt64 "" = .error .malformed := by decide
      simp [Option.filter, h, hempty]
    · cases hread : Literal.readInt64 value <;> simp [Option.filter, h, hread, Except.toOption]

end Environment

/-! ### The settings file -/

/-- The settings file of a run. -/
structure SettingsFile where
  /-- The directory that holds it, as an absolute path. -/
  dir : String
  keys : Toml.Table

/-- What the last of the keys with this name, in any case, stands for. -/
def Settings.node? (keys : Toml.Table) (name : String) : Option Toml.Node :=
  (keys.reverse.find? fun entry => CaseFold.matchesKeyword entry.1 name).map (·.2)

namespace SettingsFile

variable (file : SettingsFile) (name : String)

def number? : Option Int64 :=
  (Settings.node? file.keys name).bind Settings.integer?

def text? : Option String :=
  (Settings.node? file.keys name).bind Settings.text?

/-- A relative path is read from the directory of the file. -/
def path? : Option String :=
  (file.text? name).map fun path =>
    if path = "" ∨ Path.isAbsolute path then path else Path.join file.dir path

end SettingsFile

namespace Settings

theorem node?_snoc (keys : Toml.Table) (key : String) (node : Toml.Node) (name : String) :
    node? (keys ++ [(key, node)]) name =
      if CaseFold.matchesKeyword key name then some node else node? keys name := by
  unfold node?
  rw [List.reverse_append, List.reverse_singleton, List.singleton_append, List.find?_cons]
  cases CaseFold.matchesKeyword key name <;> rfl

/-- A key stands for one name at most. -/
theorem not_matches {key name : String} (h : CaseFold.matchesKeyword key name = true)
    (other : String) (hne : CaseFold.matchesKeyword name other = false) :
    CaseFold.matchesKeyword key other = false := by
  unfold CaseFold.matchesKeyword at h hne ⊢
  rw [eq_of_beq h, hne]

/-- The settings that keys make out. -/
def ofKeys (keys : Toml.Table) : Settings where
  memSize := ((node? keys "mem-size").bind integer?).getD 10000
  trace := ((node? keys "trace").bind text?).getD "off"
  logLevel := ((node? keys "log-level").bind text?).getD "info"
  traceDb := ((node? keys "trace-db").bind text?).getD ""

/-- One more key replaces the setting that it names. -/
theorem set_ofKeys {keys : Toml.Table} {key : String} {node : Toml.Node} {s : Settings}
    (h : (ofKeys keys).set key node = some s) : s = ofKeys (keys ++ [(key, node)]) := by
  unfold set at h
  split at h
  · next hkey =>
    obtain ⟨n, hnode, rfl⟩ := Option.map_eq_some_iff.mp h
    simp [ofKeys, node?_snoc, hkey, hnode, not_matches hkey "trace" (by decide),
      not_matches hkey "log-level" (by decide), not_matches hkey "trace-db" (by decide)]
  split at h
  · next hsize hkey =>
    obtain ⟨text, hnode, rfl⟩ := Option.map_eq_some_iff.mp h
    simp [ofKeys, node?_snoc, hsize, hkey, hnode, not_matches hkey "log-level" (by decide),
      not_matches hkey "trace-db" (by decide)]
  split at h
  · next hsize htrace hkey =>
    obtain ⟨text, hnode, rfl⟩ := Option.map_eq_some_iff.mp h
    simp [ofKeys, node?_snoc, hsize, htrace, hkey, hnode,
      not_matches hkey "trace-db" (by decide)]
  split at h
  · next hsize htrace hlevel hkey =>
    obtain ⟨text, hnode, rfl⟩ := Option.map_eq_some_iff.mp h
    simp [ofKeys, node?_snoc, hsize, htrace, hlevel, hkey, hnode]
  · next hsize htrace hlevel hdb =>
    obtain rfl := Option.some.inj h
    simp [ofKeys, node?_snoc, hsize, htrace, hlevel, hdb]

/-- **The keys of a file, taken over one by one, leave the last of each name.** -/
theorem foldlM_set {keys : Toml.Table} {s : Settings}
    (h : keys.foldlM (fun s (key, node) => s.set key node) ({} : Settings) = some s) :
    s = ofKeys keys := by
  induction keys using List.reverseRecOn generalizing s with
  | nil => exact (Option.some.inj h).symm
  | append_singleton keys entry ih =>
    obtain ⟨key, node⟩ := entry
    rw [List.foldlM_append] at h
    obtain ⟨before, hbefore, hlast⟩ := Option.bind_eq_some_iff.mp h
    rw [List.foldlM_cons] at hlast
    obtain ⟨after, hset, hnil⟩ := Option.bind_eq_some_iff.mp hlast
    obtain rfl := Option.some.inj hnil
    obtain rfl := ih hbefore
    exact set_ofKeys hset

/-- The keys in the text of a file. -/
def keys? (bytes : List UInt8) : Option Toml.Table :=
  ((Toml.read bytes).bind Toml.Document.ofStatements).map (·.root)

theorem ofBytes_eq {bytes : List UInt8} {keys : Toml.Table} {s : Settings}
    (hkeys : keys? bytes = some keys) (decoded : ofBytes bytes = some s) : s = ofKeys keys := by
  obtain ⟨document, hdocument, rfl⟩ := Option.map_eq_some_iff.mp hkeys
  obtain ⟨statements, hread, hbuilt⟩ := Option.bind_eq_some_iff.mp hdocument
  obtain ⟨statements', hread', hrest⟩ := Option.bind_eq_some_iff.mp decoded
  obtain rfl := Option.some.inj (hread.symm.trans hread')
  obtain ⟨document', hbuilt', hfold⟩ := Option.bind_eq_some_iff.mp hrest
  obtain rfl := Option.some.inj (hbuilt.symm.trans hbuilt')
  exact foldlM_set hfold

end Settings

/-- The settings file in a directory, if its text decodes. -/
structure SettingsFile.In (file : SettingsFile) (t : Tree) (dir : String) : Prop where
  place : file.dir = (Path.resolve (Path.ofParts t.here) dir).text
  decodes : ∃ bytes, t.readFile (Path.join dir Settings.fileName) = .ok bytes ∧
    Settings.keys? bytes = some file.keys ∧ (Settings.ofBytes bytes).isSome

theorem SettingsFile.In.load {file : SettingsFile} {t : Tree} {dir : String} (h : file.In t dir) :
    Settings.load t dir = .ok ((Settings.ofKeys file.keys).locate file.dir) := by
  obtain ⟨bytes, hread, hkeys, hdecoded⟩ := h.decodes
  obtain ⟨s, hs⟩ := Option.isSome_iff_exists.mp hdecoded
  simp only [Settings.load, hread, hs]
  rw [Settings.ofBytes_eq hkeys hs, h.place]

namespace CommandLine

/-! ### Flags -/

/-- The values are of one type. -/
def FlagValue.Alike : FlagValue → FlagValue → Prop
  | .text _, .text _ => True
  | .number _, .number _ => True
  | .switch _, .switch _ => True
  | _, _ => False

/-- What was given for a flag is of the flag's type. -/
def Typed (flags : List Flag) (entry : String × FlagValue) : Prop :=
  ∃ f, flags.find? (·.name == entry.1) = some f ∧ f.default.Alike entry.2

theorem Flag.alike_of_read {f : Flag} {value : String} {v : FlagValue} (h : f.read value = .ok v) :
    f.default.Alike v := by
  unfold Flag.read at h
  cases hdefault : f.default with
  | text s =>
    simp only [hdefault] at h
    obtain rfl := Except.ok.inj h
    trivial
  | number n =>
    simp only [hdefault] at h
    split at h
    · obtain rfl := Except.ok.inj h
      trivial
    · cases h
  | switch b =>
    simp only [hdefault] at h
    split at h
    · obtain rfl := Except.ok.inj h
      trivial
    · cases h

theorem Flag.alike_of_isSwitch {f : Flag} (h : f.isSwitch = true) (b : Bool) :
    f.default.Alike (.switch b) := by
  unfold Flag.isSwitch at h
  split at h
  · next hdefault =>
    rw [hdefault]
    trivial
  · cases h

/-- Every flag that is read has a value of its type. The induction carries the flags so far. -/
theorem readArguments_typed {flags : List Flag} {given : List (String × FlagValue)}
    {arguments : List String} {a : Arguments} (h : readArguments flags given arguments = .ok a)
    (typed : ∀ entry ∈ given, Typed flags entry) : ∀ entry ∈ a.given, Typed flags entry := by
  fun_induction readArguments flags given arguments with
  | case1 | case2 | case3 =>
    obtain rfl := Except.ok.inj h
    exact typed
  | case4 | case5 | case6 | case7 | case10 | case11 => cases h
  | case8 given argument rest name f known value v read _ ih =>
    exact ih h (List.forall_mem_cons.mpr ⟨⟨f, known, f.alike_of_read read⟩, typed⟩)
  | case9 given argument rest name f known switch _ ih =>
    exact ih h (List.forall_mem_cons.mpr ⟨⟨f, known, f.alike_of_isSwitch switch true⟩, typed⟩)
  | case12 given argument name f known _ value rest v read _ ih =>
    exact ih h (List.forall_mem_cons.mpr ⟨⟨f, known, f.alike_of_read read⟩, typed⟩)

/-- The flag is on the command line, whatever its value. -/
def Arguments.Gives (a : Arguments) (name : String) : Prop :=
  ∃ value, (name, value) ∈ a.given

theorem Arguments.exists_lookup {a : Arguments} {name : String} :
    a.Gives name ↔ ∃ value, a.given.lookup name = some value := by
  rw [← Option.isSome_iff_exists, List.lookup_isSome_iff]
  constructor
  · intro ⟨value, hmem⟩
    exact ⟨_, hmem, beq_self_eq_true name⟩
  · intro ⟨⟨other, value⟩, hmem, hname⟩
    obtain rfl := eq_of_beq hname
    exact ⟨value, hmem⟩

section Given

variable {flags : List Flag} {arguments : List String} {a : Arguments} {name : String} {f : Flag}
  (parsed : Arguments.ofList flags arguments = .ok a)
  (known : flags.find? (·.name == name) = some f)
include parsed known

theorem alike_of_lookup {value : FlagValue} (h : a.given.lookup name = some value) :
    f.default.Alike value := by
  obtain ⟨front, back, hgiven, -⟩ := List.lookup_eq_some_iff.mp h
  have hmem : (name, value) ∈ a.given := by
    rw [hgiven]
    exact List.mem_append_right _ List.mem_cons_self
  obtain ⟨g, hg, alike⟩ := readArguments_typed parsed (by simp) _ hmem
  obtain rfl := Option.some.inj (known.symm.trans hg)
  exact alike

/-- A text flag that is given has a text, also if it is the default. -/
theorem gives_iff_text? {s : String} (type : f.default = .text s) :
    a.Gives name ↔ (a.text? name).isSome := by
  rw [Arguments.exists_lookup, Arguments.text?]
  cases hlookup : a.given.lookup name with
  | none => simp
  | some value =>
    have alike := alike_of_lookup parsed known hlookup
    rw [type] at alike
    cases value with
    | text => simp
    | number | switch => exact alike.elim

theorem gives_iff_number? {n : Int64} (type : f.default = .number n) :
    a.Gives name ↔ (a.number? name).isSome := by
  rw [Arguments.exists_lookup, Arguments.number?]
  cases hlookup : a.given.lookup name with
  | none => simp
  | some value =>
    have alike := alike_of_lookup parsed known hlookup
    rw [type] at alike
    cases value with
    | number => simp
    | text | switch => exact alike.elim

end Given

/-! ### Sources -/

/-- Where the settings of a run come from. -/
structure Sources where
  flags : Arguments
  environment : Environment
  file : Option SettingsFile

namespace Sources

variable (s : Sources)

def memSize : Int64 :=
  layered (s.flags.number? "mem") (s.environment.number? "SVM_MEM_SIZE")
    (s.file.bind (·.number? "mem-size")) 10000

def trace : String :=
  layered (s.flags.text? "trace") (s.environment.text? "SVM_TRACE")
    (s.file.bind (·.text? "trace")) "off"

def logLevel : String :=
  layered (s.flags.text? "log-level") (s.environment.text? "SVM_LOG_LEVEL")
    (s.file.bind (·.text? "log-level")) "info"

def traceDb : String :=
  layered (s.flags.text? "trace-db") (s.environment.text? "SVM_TRACE_DB")
    (s.file.bind (·.path? "trace-db")) ""

/-- The arena size of a program: an image that asks for one comes behind the flag only. -/
def arena (image : Option Int64) : Int64 :=
  layered ((s.flags.number? "mem").or image) (s.environment.number? "SVM_MEM_SIZE")
    (s.file.bind (·.number? "mem-size")) 10000

/-- What comes out of the merge is not valid. -/
def Rejected : Prop :=
  s.memSize < 0 ∨ TraceMode.ofName? s.trace = none ∨ Journal.Level.ofName? s.logLevel = none

/-- The merged settings. -/
def merged : Settings where
  memSize := s.memSize
  trace := s.trace
  logLevel := s.logLevel
  traceDb := s.traceDb
  dir := (s.file.map (·.dir)).getD ""

end Sources

/-- The settings file that the flags lead to: the one in the directory that they name, else the
nearest from the current directory upward, if there is any. -/
inductive Reads (t : Tree) (a : Arguments) : Option SettingsFile → Prop
  | named {dir : String} {file : SettingsFile} (name : a.text? "config" = some dir)
      (nonempty : dir ≠ "") (held : file.In t dir) : Reads t a (some file)
  | found {dir : String} {file : SettingsFile} (unnamed : (a.text? "config").getD "" = "")
      (nearest : Settings.nearest? t (Path.resolve (Path.ofParts t.here) ".").parts.reverse =
        some dir) (held : file.In t dir) : Reads t a (some file)
  | absent (unnamed : (a.text? "config").getD "" = "")
      (nowhere : Settings.nearest? t (Path.resolve (Path.ofParts t.here) ".").parts.reverse =
        none) : Reads t a none

/-- The command line runs the program at `path` with these sources. -/
structure Sources.Of (s : Sources) (t : Tree) (arguments : List String) (path : String) :
    Prop where
  parsed : Arguments.ofList runFlags arguments = .ok s.flags
  rest : s.flags.rest = [path]
  reads : Reads t s.flags s.file

theorem layered_eq {α : Type} (flag environment file : Option α) (default : α) :
    layered flag environment file default = flag.getD (environment.getD (file.getD default)) := by
  rw [layered, Option.getD_or, Option.getD_or]

/-- What a settings file says, or the defaults. -/
def fileSettings (file : Option SettingsFile) : Settings where
  memSize := (file.bind (·.number? "mem-size")).getD 10000
  trace := (file.bind (·.text? "trace")).getD "off"
  logLevel := (file.bind (·.text? "log-level")).getD "info"
  traceDb := (file.bind (·.path? "trace-db")).getD ""
  dir := (file.map (·.dir)).getD ""

theorem locate_ofKeys (file : SettingsFile) :
    (Settings.ofKeys file.keys).locate file.dir = fileSettings (some file) := by
  have hkey : (Settings.ofKeys file.keys).traceDb = (file.text? "trace-db").getD "" := rfl
  have hdb : ((Settings.ofKeys file.keys).locate file.dir).traceDb =
      (file.path? "trace-db").getD "" := by
    cases htext : file.text? "trace-db" <;>
      simp [Settings.locate, hkey, SettingsFile.path?, htext]
  have hfields : fileSettings (some file) = { Settings.ofKeys file.keys with
      dir := file.dir
      traceDb := (file.path? "trace-db").getD "" } := rfl
  rw [hfields, ← hdb]
  rfl

theorem Reads.settings {t : Tree} {a : Arguments} {file : Option SettingsFile}
    (h : Reads t a file) :
    (if (a.text? "config").getD "" = "" then Settings.find t "."
      else Settings.load t ((a.text? "config").getD "")) = .ok (fileSettings file) := by
  cases h with
  | named name nonempty held =>
    rw [name, Option.getD_some, if_neg nonempty, held.load, locate_ofKeys]
  | found unnamed nearest held =>
    simp only [if_pos unnamed, Settings.find, nearest]
    rw [held.load, locate_ofKeys]
  | absent unnamed nowhere =>
    simp only [if_pos unnamed, Settings.find, nowhere]
    rfl

/-- **The merge looks at the sources one setting at a time.** -/
theorem Sources.mergeSettings_eq {s : Sources} {t : Tree} (reads : Reads t s.flags s.file) :
    mergeSettings t s.environment s.flags = .ok s.merged := by
  rw [CommandLine.mergeSettings_eq, reads.settings]
  simp only [Except.map, Settings.override, Environment.textOr_eq, Environment.numberOr_eq,
    fileSettings, merged, memSize, trace, logLevel, traceDb, layered_eq]

/-! ### The check of what is merged -/

/-- The error is about the settings, not about the program or its run. -/
def RunError.ConcernsSettings : RunError → Prop
  | .settings _ => True
  | .unknownLevel _ => True
  | _ => False

/-- The error about the first setting that is not valid. -/
def Sources.rejection (s : Sources) : RunError :=
  if s.memSize < 0 then .settings (.negativeMemSize s.memSize)
  else if TraceMode.ofName? s.trace = none then .settings (.unknownTrace s.trace)
  else .unknownLevel s.logLevel

theorem Sources.notice_rejection (s : Sources) : s.rejection.notice = "" := by
  unfold rejection
  split
  · rfl
  · split <;> rfl

theorem Sources.rejection_concernsSettings (s : Sources) : s.rejection.ConcernsSettings := by
  unfold rejection
  split
  · trivial
  · split <;> trivial

namespace Sources.Of

variable {s : Sources} {t : Tree} {arguments : List String} {path : String}
  (h : s.Of t arguments path)
include h

/-- Settings that are rejected are rejected before the program is looked at. -/
theorem prepare_of_rejected (rejected : s.Rejected) :
    Job.prepare t s.environment arguments = .error s.rejection := by
  have hmerged := mergeSettings_eq h.reads
  simp only [Job.prepare, h.parsed, h.rest, hmerged, Except.mapError, ok_bind, Settings.validate,
    Settings.traceMode, rejection, merged]
  by_cases hsize : s.memSize < 0
  · simp only [if_pos hsize]
    rfl
  simp only [if_neg hsize]
  cases hmode : TraceMode.ofName? s.trace with
  | none => rfl
  | some mode =>
    have hlevel : Journal.Level.ofName? s.logLevel = none := by
      rcases rejected with hneg | hnone | hnone
      · exact absurd hneg hsize
      · rw [hmode] at hnone
        cases hnone
      · exact hnone
    simp only [Except.map, ok_bind, hlevel, reduceCtorEq, if_false]
    rfl

/-- All other settings are accepted. -/
theorem accepted (valid : ¬ s.Rejected) :
    ∃ mode level, TraceMode.ofName? s.trace = some mode ∧
      Journal.Level.ofName? s.logLevel = some level ∧
      Accepted t s.environment s.flags s.merged mode level := by
  have hsize : ¬ s.memSize < 0 := fun hneg => valid (.inl hneg)
  obtain ⟨mode, hmode⟩ := Option.ne_none_iff_exists'.mp fun hnone => valid (.inr (.inl hnone))
  obtain ⟨level, hlevel⟩ := Option.ne_none_iff_exists'.mp fun hnone => valid (.inr (.inr hnone))
  have htrace : s.merged.traceMode = .ok mode := by simp only [Settings.traceMode, merged, hmode]
  refine ⟨mode, level, hmode, hlevel, mergeSettings_eq h.reads, ?_, htrace, hlevel⟩
  rw [Settings.validate, htrace]
  exact if_neg hsize

end Sources.Of

/-! ### The program -/

/-- The size that a program file asks for: it holds an image with a positive one. -/
def imageSize? (t : Tree) (path : String) : Option Int64 :=
  (t.readFile path).toOption.bind fun bytes =>
    ((Image.read bytes).toOption.map (·.memSize)).filter (0 < ·)

theorem imageSize?_of_load {t : Tree} {path : String} {program : Program}
    (h : Program.load t path = .ok program) :
    imageSize? t path = (some program.memSize).filter (0 < ·) := by
  unfold Program.load at h
  unfold imageSize?
  cases hread : t.readFile path with
  | error e => simp [hread] at h
  | ok bytes =>
    simp only [hread, Program.ofBytes] at h
    cases himage : Image.read bytes with
    | ok image =>
      simp only [Image.isLikely_of_read himage, if_true, himage] at h
      obtain rfl := Except.ok.inj h
      simp [Except.toOption, himage]
    | error e =>
      -- Text asks for no size, and only text is loaded where there is no image.
      have hzero : program.memSize = 0 := by
        split at h
        · simp [himage] at h
        · split at h
          · cases h
          · exact congrArg Program.memSize (Except.ok.inj h).symm
      have hnone : ¬ (0 : Int64) < 0 := by decide
      simp [Except.toOption, himage, hzero, hnone, Option.filter]

theorem Sources.arenaSize_eq {s : Sources} {t : Tree} {path : String} {program : Program}
    (h : Program.load t path = .ok program) :
    arenaSize s.flags s.merged program = s.arena (imageSize? t path) := by
  rw [imageSize?_of_load h]
  simp only [arenaSize, arena, merged, memSize, layered_eq]
  cases s.flags.number? "mem" with
  | some n => simp
  | none => by_cases hpositive : 0 < program.memSize <;> simp [Option.filter, hpositive]

/-- The machine and the mode that the settings give a run of this code. -/
def Sources.session (s : Sources) (mode : TraceMode) (image : Option Int64)
    (code : List Instruction) : Session :=
  { machine := Machine.load (s.arena image) code.toArray, mode }

/-- What a run that has come so far leaves behind: what its machine has printed, its dumps, and the
lines about its events and about the failure of its record that a journal of this level keeps. -/
def reportOf (level : Journal.Level) (path : String) (id : RunId) (tree : Tree)
    (failure : Option RecordError) (result : RunResult Session) : Report where
  stdout := result.reached.output
  stderr := result.reached.dumps
  journal := Journal.write true level
    (result.reached.hooks.toList.flatMap (Journal.entries path id) ++ failureEntries result failure)
  tree := tree
  error := RunError.ofResult result

/-- The machine, the store and the journal of a run are those that the settings ask for. -/
structure Sources.Governs (s : Sources) (t : Tree) (path : String) (code : List Instruction)
    (mode : TraceMode) (level : Journal.Level) (fuel : Nat) (id : RunId) (r : Report) : Prop where
  disassembled : s.flags.isOn "disasm" = true →
    r = { stdout := Assembly.disassemble code, tree := t }
  unrecorded : s.flags.isOn "disasm" = false → s.traceDb = "" →
    r = reportOf level path id t none ((s.session mode (imageSize? t path) code).run fuel)
  unopened : s.flags.isOn "disasm" = false → s.traceDb ≠ "" →
    ∀ stores e, Stores.openStore { tree := t } s.traceDb = (stores, .error e) →
      r = { tree := stores.tree, error := some (.store e) }
  recorded : s.flags.isOn "disasm" = false → s.traceDb ≠ "" →
    ∀ stores store, Stores.openStore { tree := t } s.traceDb = (stores, .ok store) →
      ∀ result, result = (s.session mode (imageSize? t path) code).run fuel →
      ∀ followed, followed = (stores.addRecorder store).1.follow (stores.addRecorder store).2 id
          result.reached.hooks.toList →
        r = reportOf level path id followed.tree
          (followed.recordError? (stores.addRecorder store).2) result

/-- Which source each setting of a run comes from, and when there is no run. -/
structure Precedence (s : Sources) (t : Tree) (arguments : List String) (path : String) :
    Prop where
  /-- A flag counts whenever it is given. -/
  size_flag : s.flags.Gives "mem" ↔ (s.flags.number? "mem").isSome
  text_flag : ∀ name ∈ ["trace", "log-level", "trace-db"],
    (s.flags.Gives name ↔ (s.flags.text? name).isSome)
  rejected_iff : s.Rejected ↔
    ∃ e : RunError, e.ConcernsSettings ∧ Job.prepare t s.environment arguments = .error e
  /-- A rejection has no regard for the program: it is the same in all trees with these settings. -/
  rejected : s.Rejected → ∀ t', Reads t' s.flags s.file → ∀ fuel id,
    run fuel id t' s.environment arguments = { tree := t', error := some s.rejection }
  /-- Any other run is prepared with what comes out of the merge, and carried out with that. -/
  accepted : ¬ s.Rejected → ∃ mode level, TraceMode.ofName? s.trace = some mode ∧
    Journal.Level.ofName? s.logLevel = some level ∧
    (∀ e, Program.load t path = .error e →
      Job.prepare t s.environment arguments = .error (.program e) ∧
      ∀ fuel id, run fuel id t s.environment arguments =
        { tree := t, error := some (.program e) }) ∧
    ∀ program, Program.load t path = .ok program →
      Job.prepare t s.environment arguments = .ok
        { path, mode, level, memSize := s.arena (imageSize? t path), code := program.code,
          disassembles := s.flags.isOn "disasm", traceDb := s.traceDb } ∧
      ∀ fuel id, s.Governs t path program.code mode level fuel id
        (run fuel id t s.environment arguments)

/-- A job is carried out with its own settings. -/
theorem Sources.governs_perform (s : Sources) (t : Tree) (path : String) (code : List Instruction)
    (mode : TraceMode) (level : Journal.Level) (fuel : Nat) (id : RunId) :
    s.Governs t path code mode level fuel id (Job.perform fuel id t
      { path, mode, level, memSize := s.arena (imageSize? t path), code,
        disassembles := s.flags.isOn "disasm", traceDb := s.traceDb }) where
  disassembled := fun shows => by rw [Job.perform, if_pos shows]
  unrecorded := fun runs unnamed => by
    simp only [Job.perform, runs, Job.openRecord, unnamed, if_true, Bool.false_eq_true, if_false]
    rfl
  unopened := fun runs named stores e opened => by
    simp only [Job.perform, runs, Job.openRecord, named, opened, Bool.false_eq_true, if_false]
  recorded := fun runs named stores store opened result hresult followed hfollowed => by
    subst hresult hfollowed
    simp only [Job.perform, runs, Job.openRecord, named, opened, Bool.false_eq_true, if_false]
    rfl

/-- **Each setting comes from the first source that has it**, whatever the others say about it and
about the other settings: the flag, the image for the arena size, the environment, the settings
file, the default. A run is refused over its settings exactly if what comes out of the merge is not
valid; any other run has the arena size, the dump mode, the store and the level of the journal that
come out of it. -/
theorem settings_precedence {s : Sources} {t : Tree} {arguments : List String} {path : String}
    (h : s.Of t arguments path) : Precedence s t arguments path where
  size_flag := gives_iff_number? h.parsed rfl rfl
  text_flag := by
    intro name hname
    simp only [List.mem_cons, List.not_mem_nil, or_false] at hname
    rcases hname with rfl | rfl | rfl
    · exact gives_iff_text? h.parsed rfl rfl
    · exact gives_iff_text? h.parsed rfl rfl
    · exact gives_iff_text? h.parsed rfl rfl
  rejected_iff := by
    constructor
    · intro rejected
      exact ⟨_, s.rejection_concernsSettings, h.prepare_of_rejected rejected⟩
    · intro ⟨e, concerns, refused⟩
      by_contra valid
      obtain ⟨mode, level, -, -, accepted⟩ := h.accepted valid
      rw [accepted.prepare h.parsed h.rest] at refused
      cases hload : Program.load t path with
      | error e' =>
        rw [hload] at refused
        obtain rfl := Except.error.inj refused
        exact concerns
      | ok program =>
        rw [hload] at refused
        cases refused
  rejected := by
    intro rejected t' reads fuel id
    have h' : s.Of t' arguments path := ⟨h.parsed, h.rest, reads⟩
    rw [run, h'.prepare_of_rejected rejected]
    simp only [s.notice_rejection]
  accepted := by
    intro valid
    obtain ⟨mode, level, hmode, hlevel, accepted⟩ := h.accepted valid
    have prepared := accepted.prepare h.parsed h.rest
    refine ⟨mode, level, hmode, hlevel, fun e hload => ?_, fun program hload => ?_⟩
    · rw [hload] at prepared
      have refused : Job.prepare t s.environment arguments = .error (.program e) := prepared
      refine ⟨refused, fun fuel id => ?_⟩
      rw [run, refused]
      rfl
    · rw [hload] at prepared
      have job : Job.prepare t s.environment arguments = .ok
          { path, mode, level, memSize := s.arena (imageSize? t path), code := program.code,
            disassembles := s.flags.isOn "disasm", traceDb := s.traceDb } := by
        rw [prepared, ← s.arenaSize_eq hload]
        rfl
      refine ⟨job, fun fuel id => ?_⟩
      rw [run, job]
      exact s.governs_perform t path program.code mode level fuel id

/-- Two values that no run could be started with, and a relative path. -/
def badSettings : List UInt8 :=
  Utf8.encode
    "Mem-Size = -5\ntrace = \"loud\"\nlog-level = \"warn\"\ntrace-db = \"runs.db\"\n"

/-- The settings file is in the directory above the current one, which holds an image. -/
def badSettingsTree : Tree where
  nodes := [(["home"], .directory), (["home", "svm.toml"], .file badSettings),
    (["home", "work"], .directory),
    (["home", "work", "p.svmb"], .file (Image.ofProgram 8 letterCode).write)]
  here := ["home", "work"]

def badSettingsFile : SettingsFile where
  dir := "/home"
  keys := (Settings.keys? badSettings).getD []

/-- The size is set in the environment and the mode by a flag, to what it is by default. -/
def overridingSources : Sources where
  flags := { given := [("trace", .text "off")], rest := ["p.svmb"] }
  environment := [("SVM_MEM_SIZE", "64"), ("SVM_LOG_LEVEL", "")]
  file := some badSettingsFile

theorem overridingSources_of :
    overridingSources.Of badSettingsTree ["-trace", "off", "p.svmb"] "p.svmb" where
  parsed := by decide +kernel
  rest := rfl
  reads := by
    have hdecodes : (Settings.keys? badSettings).isSome ∧ (Settings.ofBytes badSettings).isSome := by
      decide +kernel
    obtain ⟨keys, hsome⟩ := Option.isSome_iff_exists.mp hdecodes.1
    have nearest : Settings.nearest? badSettingsTree
        (Path.resolve (Path.ofParts badSettingsTree.here) ".").parts.reverse = some "/home" := by
      decide +kernel
    refine .found (by decide) nearest ⟨by decide +kernel, ?_⟩
    refine ⟨badSettings, by decide +kernel, ?_, hdecodes.2⟩
    simp only [badSettingsFile, hsome, Option.getD_some]

/-- The bad values are overridden and do no harm. The image gets its own size, and the path in the
file is read from where the file is. -/
theorem settings_precedence_overridden :
    overridingSources.Of badSettingsTree ["-trace", "off", "p.svmb"] "p.svmb" ∧
      overridingSources.memSize = 64 ∧ overridingSources.trace = "off" ∧
      overridingSources.logLevel = "warn" ∧ overridingSources.traceDb = "/home/runs.db" ∧
      overridingSources.arena (imageSize? badSettingsTree "p.svmb") = 8 ∧
      ¬ overridingSources.Rejected ∧
      Precedence overridingSources badSettingsTree ["-trace", "off", "p.svmb"] "p.svmb" := by
  have hsize : overridingSources.memSize = 64 := by decide +kernel
  have htrace : overridingSources.trace = "off" := by decide +kernel
  obtain ⟨hlevel, hdb⟩ : overridingSources.logLevel = "warn" ∧
      overridingSources.traceDb = "/home/runs.db" := by decide +kernel
  have harena : overridingSources.arena (imageSize? badSettingsTree "p.svmb") = 8 := by
    decide +kernel
  have valid : ¬ overridingSources.Rejected := by
    rw [Sources.Rejected, hsize, htrace, hlevel]
    decide
  exact ⟨overridingSources_of, hsize, htrace, hlevel, hdb, harena, valid,
    settings_precedence overridingSources_of⟩

end CommandLine

end RegisterMachine
