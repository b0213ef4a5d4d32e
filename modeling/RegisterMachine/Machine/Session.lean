import RegisterMachine.Machine.Step

/-!
# Sessions

A machine together with what its observers have seen: the printed text, the dumps and the events.
Which of them are kept is part of the session; none of it reaches the machine.
-/

set_option autoImplicit false

namespace RegisterMachine

def Event.printedText : Event → String
  | .printed text => text
  | _ => ""

def Event.dumpedText : Event → String
  | .dumped text => text
  | _ => ""

/-- Whether the event is a hook call: printed text and dumps are not. -/
def Event.isHook : Event → Bool
  | .printed _ => false
  | .dumped _ => false
  | _ => true

/-- The texts of a list of events, one after the other. -/
def textOf (part : Event → String) (events : List Event) : String :=
  events.foldl (fun text e => text ++ part e) ""

structure Session where
  machine : Machine
  mode : TraceMode := .off
  /-- Whether printed text is kept. -/
  keepsOutput : Bool := true
  /-- Whether dumps are kept. -/
  keepsDumps : Bool := true
  /-- Whether hook calls are kept. -/
  keepsHooks : Bool := true
  output : String := ""
  dumps : String := ""
  hooks : Array Event := #[]

namespace Session

def observe (s : Session) (e : Event) : Session :=
  match e with
  | .printed text => if s.keepsOutput then { s with output := s.output ++ text } else s
  | .dumped text => if s.keepsDumps then { s with dumps := s.dumps ++ text } else s
  | e => if s.keepsHooks then { s with hooks := s.hooks.push e } else s

/-- One step of the session's machine; nothing if the machine is trapped. -/
def step? (s : Session) : Option Session :=
  let { machine, mode, keepsOutput, keepsDumps, keepsHooks, output, dumps, hooks } := s
  match machine.step mode with
  | none => none
  | some (machine, events) =>
    some (events.foldl observe
      { machine, mode, keepsOutput, keepsDumps, keepsHooks, output, dumps, hooks })

end Session

/-- How a run ends: at a terminal state, in front of a step that traps the machine, or undecided when
the fuel is spent. -/
inductive RunResult (α : Type) where
  | finished (a : α)
  | trapped (a : α)
  | outOfFuel (a : α)
  deriving Repr, Inhabited

namespace Session

/-- Steps until the machine has stopped, at most `fuel` times. -/
def run : Nat → Session → RunResult Session
  | 0, s => if s.machine.isRunning then .outOfFuel s else .finished s
  | fuel + 1, s =>
    if s.machine.isRunning then
      match s.step? with
      | none => .trapped s
      | some s => run fuel s
    else .finished s

end Session

/-- How far a run has got. -/
def RunResult.reached {α : Type} : RunResult α → α
  | .finished a => a
  | .trapped a => a
  | .outOfFuel a => a

end RegisterMachine
