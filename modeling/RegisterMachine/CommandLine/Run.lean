import RegisterMachine.Assembly.Printer
import RegisterMachine.CommandLine.Flags
import RegisterMachine.CommandLine.Program
import RegisterMachine.Journal
import RegisterMachine.Machine.Session
import RegisterMachine.Record.Store
import RegisterMachine.Settings.File

/-!
# The run command

Runs one program file. Each setting is that of the flag if it is given, else that of the environment,
else that of the settings file, else its default; the merged settings are checked before the program
is read. An image that asks for an arena size gets it unless a flag says otherwise.
-/

set_option autoImplicit false

namespace RegisterMachine.CommandLine

def runFlags : List Flag :=
  [{ name := "config", default := .text "",
     help := "Directory holding svm.toml (default: search upward from cwd)" },
   { name := "disasm", default := .switch false, help := "Disassemble instead of run" },
   { name := "log-level", default := .text "info",
     help := "Log level: debug, info, warn or error" },
   { name := "mem", default := .number 10000, help := "Arena size in cells" },
   { name := "trace", default := .text "off", help := "Dump mode: off, summary or verbose" },
   { name := "trace-db", default := .text "", help := "Record the run in this SQLite database" }]

def runUsage : String :=
  "Usage: svm [flags] <file.svm|file.svmb>\n" ++ usage runFlags

inductive RunError where
  | flags (e : FlagError)
  /-- There are no arguments behind the flags, or several. -/
  | programCount
  | settings (e : SettingsError)
  | unknownLevel (name : String)
  | program (e : ProgramError)
  | store (e : OpenError)
  | fault (f : Fault)
  /-- The machine was trapped in a division. -/
  | trapped
  /-- The run has not ended. -/
  | unfinished

def RunError.message : RunError → String
  | .flags e => e.message
  | .programCount => "expected exactly one program file"
  | .settings e => e.message
  | .unknownLevel name => Journal.Level.unknownMessage name
  | .program e => e.message
  | .store e => e.message
  | .fault f => f.message
  | .trapped => "integer divide by zero"
  | .unfinished => "run unfinished"

/-- What is shown on the error channel besides the message. -/
def RunError.notice : RunError → String
  | .flags e => e.notice ++ runUsage
  | .programCount => runUsage
  | _ => ""

/-- The settings of a run: those of the file, the environment and the flags. -/
def mergeSettings (t : Tree) (env : Environment) (a : Arguments) :
    Except SettingsError Settings := do
  let dir := (a.text? "config").getD ""
  let file ← if dir = "" then Settings.find t "." else Settings.load t dir
  let s := file.override env
  return { s with
    memSize := (a.number? "mem").getD s.memSize
    trace := (a.text? "trace").getD s.trace
    logLevel := (a.text? "log-level").getD s.logLevel
    traceDb := (a.text? "trace-db").getD s.traceDb }

/-- A run that is ready to start. -/
structure Job where
  path : String
  mode : TraceMode
  level : Journal.Level
  memSize : Int64
  code : List Instruction
  disassembles : Bool
  traceDb : String

namespace Job

/-- Reads the arguments, the settings and the program. -/
def prepare (t : Tree) (env : Environment) (arguments : List String) : Except RunError Job := do
  let a ← (Arguments.ofList runFlags arguments).mapError RunError.flags
  match a.rest with
  | [path] =>
    let s ← (mergeSettings t env a).mapError RunError.settings
    s.validate.mapError RunError.settings
    let mode ← s.traceMode.mapError RunError.settings
    match Journal.Level.ofName? s.logLevel with
    | none => throw (.unknownLevel s.logLevel)
    | some level =>
      let program ← (Program.load t path).mapError RunError.program
      let memSize :=
        if 0 < program.memSize ∧ (a.number? "mem").isNone then program.memSize else s.memSize
      return { path, mode, level, memSize, code := program.code,
               disassembles := a.isOn "disasm", traceDb := s.traceDb }
  | _ => throw .programCount

/-- The machine with its observers. All hook calls are kept, for the journal and the record. -/
def session (job : Job) : Session :=
  { machine := Machine.load job.memSize job.code.toArray, mode := job.mode }

/-- The store that the run is recorded in and the number of its recorder, if a record is wanted. -/
def openRecord (job : Job) (t : Tree) : Stores × Except OpenError (Option Nat) :=
  let stores : Stores := { tree := t }
  if job.traceDb = "" then (stores, .ok none)
  else
    match stores.openStore job.traceDb with
    | (stores, .error e) => (stores, .error e)
    | (stores, .ok store) =>
      let (stores, recorder) := stores.addRecorder store
      (stores, .ok (some recorder))

end Job

/-- What a command leaves behind. -/
structure Report where
  stdout : String := ""
  stderr : String := ""
  /-- The lines that the run has written about itself. -/
  journal : List String := []
  tree : Tree
  error : Option RunError := none

/-- What ended a run, unless it has halted. -/
def RunError.ofResult : RunResult Session → Option RunError
  | .finished s => s.machine.fault?.map RunError.fault
  | .trapped _ => some .trapped
  | .outOfFuel _ => some .unfinished

/-- What the journal says last if the record of a run that has ended was not kept. -/
def failureEntries : RunResult Session → Option RecordError → List Journal.Entry
  | .finished _, some e => [Journal.recordFailure e.message]
  | _, _ => []

/-- Carries out a job as the run `id`, for at most `fuel` steps. -/
def Job.perform (fuel : Nat) (id : RunId) (t : Tree) (job : Job) : Report :=
  if job.disassembles then { stdout := Assembly.disassemble job.code, tree := t }
  else
    match job.openRecord t with
    | (stores, .error e) => { tree := stores.tree, error := some (.store e) }
    | (stores, .ok recorder) =>
      let result := job.session.run fuel
      let s := result.reached
      let events := s.hooks.toList
      let stores := recorder.elim stores fun n => stores.follow n id events
      let failure := recorder.bind stores.recordError?
      { stdout := s.output, stderr := s.dumps,
        journal := Journal.write true job.level
          (events.flatMap (Journal.entries job.path id) ++ failureEntries result failure),
        tree := stores.tree, error := RunError.ofResult result }

/-- The run command. -/
def run (fuel : Nat) (id : RunId) (t : Tree) (env : Environment) (arguments : List String) :
    Report :=
  match Job.prepare t env arguments with
  | .error e => { stderr := e.notice, tree := t, error := some e }
  | .ok job => job.perform fuel id t

/-- The exit code of a command that ended like this, and its last words. -/
def RunError.farewell : Option RunError → Nat × String
  | none => (0, "")
  | some (.fault f) => (1, "Runtime error: " ++ f.message ++ "\n")
  | some .trapped => (2, "panic: runtime error: " ++ RunError.trapped.message ++ "\n")
  | some e => (1, "Error: " ++ e.message ++ "\n")

end RegisterMachine.CommandLine
