import RegisterMachine.Machine.Dump
import RegisterMachine.Machine.Execution

/-!
# Steps

A step checks that heap and stack have not met, fetches an instruction and executes it. What an
observer can see of it comes back as a list of events in order; the events do not influence the
state. A step has no result only if the machine is trapped.
-/

set_option autoImplicit false

namespace RegisterMachine

inductive Event where
  /-- The first step starts, on an arena of `size` cells with `length` instructions loaded. -/
  | began (size length : Nat) (view : View)
  /-- The instruction at `pc` is about to execute. -/
  | fetched (pc : Int64) (instruction : Instruction) (view : View)
  | printed (text : String)
  /-- The instruction at `pc` has executed without a fault. -/
  | executed (pc : Int64) (instruction : Instruction) (view : View)
  | dumped (text : String)
  /-- The machine has halted, or stopped at `fault`. -/
  | ended (fault : Option Fault) (view : View)
  deriving DecidableEq, Repr, Inhabited

namespace Machine

/-- Heap and stack must leave a cell between them. The highest allocated address counts as heap
cursor if it is above it, since allocation does not move the register. -/
def checkGap (m : Machine) : Except Cause Unit := do
  let hp ← m.registers.value .hp
  let sp ← m.registers.value .sp
  if max hp m.heap + 1 ≥ sp then throw (.collision hp m.heap sp)

def opening (m : Machine) : List Event :=
  if m.begun then [] else [.began m.arena.size m.code.size m.view]

def closing (mode : TraceMode) (m : Machine) : List Event :=
  (if mode = .off then [] else [.dumped m.dump]) ++ [.ended m.fault? m.view]

def fail (m : Machine) (f : Fault) : Machine :=
  { m with status := .faulted f }

def halt (m : Machine) : Machine :=
  { m with status := .halted }

def advance (m : Machine) : Machine :=
  { m with pc := m.pc + 1, steps := m.steps + 1 }

/-- The dump that follows an instruction in verbose mode. -/
def progress (mode : TraceMode) (i : Instruction) (m : Machine) : List Event :=
  if mode = .verbose then [.dumped ("\nInstruction: " ++ i.text ++ "\n" ++ m.dump)] else []

/-- Executes `i`, which was fetched from `pc`, on a machine that has advanced past it. -/
def execute (mode : TraceMode) (m : Machine) (pc : Int64) (i : Instruction) :
    Option (Machine × List Event) :=
  match Execution.ofInstruction i { machine := m } with
  | .ok () { machine := m, printed } =>
    let seen := printed.map Event.printed ++ [.executed pc i m.view]
    if i.op = .halt then
      let m := m.halt
      some (m, seen ++ m.closing mode)
    else
      some (m, seen ++ progress mode i m)
  | .error obstacle { machine := m, printed } =>
    match obstacle.cause? with
    | none => none
    | some cause =>
      let m := m.fail (Fault.ofCause cause pc i)
      some (m, printed.map Event.printed ++ m.closing mode)

/-- One step of a running machine. -/
def stepRunning (mode : TraceMode) (m : Machine) : Option (Machine × List Event) :=
  match m.checkGap with
  | .error cause =>
    let m := m.fail (Fault.ofCause cause m.pc {})
    some (m, m.closing mode)
  | .ok () =>
    match m.fetch? with
    | none =>
      let m := m.fail (Fault.ofCause (.noInstruction m.pc m.code.size) m.pc {})
      some (m, m.closing mode)
    | some i =>
      let pc := m.pc
      let view := m.view
      match m.advance.execute mode pc i with
      | none => none
      | some (m, events) => some (m, .fetched pc i view :: events)

/-- One step; a machine that has stopped stays as it is. -/
def step (mode : TraceMode) (m : Machine) : Option (Machine × List Event) :=
  if m.isRunning then
    let first := m.opening
    match { m with begun := true }.stepRunning mode with
    | none => none
    | some (m, events) => some (m, first ++ events)
  else some (m, [])

end Machine

end RegisterMachine
