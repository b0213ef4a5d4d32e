import RegisterMachine.Machine.Basic
import RegisterMachine.Text.CaseFold

/-!
# Dumps

The state of a machine as text: the registers in one line, then one line per cell. The trace mode
says when dumps are written.
-/

set_option autoImplicit false

namespace RegisterMachine

inductive TraceMode where
  | off
  /-- One dump, when the machine stops. -/
  | summary
  /-- Also a dump after every instruction. -/
  | verbose
  deriving DecidableEq, Repr, Inhabited

namespace TraceMode

def all : List TraceMode :=
  [.off, .summary, .verbose]

def name : TraceMode → String
  | .off => "off"
  | .summary => "summary"
  | .verbose => "verbose"

def number : TraceMode → Nat
  | .off => 0
  | .summary => 1
  | .verbose => 2

/-- The name of the mode with this number; a number that no mode has is shown as is. -/
def nameOfNumber (n : Nat) : String :=
  match all[n]? with
  | some mode => mode.name
  | none => "TraceMode(" ++ Decimal.ofNat n ++ ")"

/-- The mode with this name, in any case. -/
def ofName? (name : String) : Option TraceMode :=
  all.find? fun mode => CaseFold.matchesKeyword name mode.name

def unknownMessage (name : String) : String :=
  "unknown trace mode " ++ Quoted.text name

end TraceMode

namespace Machine

def dumpRegisters (m : Machine) : String :=
  let rs := m.registers
  "| PC: " ++ Decimal.ofInt64 m.pc ++ " | SP: " ++ Word.text rs.sp ++ " | CL: " ++ Word.text rs.cl
    ++ " | FP: " ++ Word.text rs.fp ++ " | RA: " ++ Word.text rs.ra ++ " | AL: " ++ Word.text rs.al
    ++ " | A0: " ++ Word.text rs.a0 ++ " | T1: " ++ Word.text rs.t1 ++ " | HP: "
    ++ Word.text rs.hp ++ " |\n"

/-- One line per cell, numbered from `first`. -/
def dumpCells (cells : List Cell) (first : Nat) (above : String) : String :=
  match cells with
  | [] => above
  | c :: rest => dumpCells rest (first + 1) (above ++ Decimal.ofNat first ++ ": " ++ c.text ++ "\n")

def dump (m : Machine) : String :=
  dumpCells m.arena.cells.toList 0 ("| Registers |\n" ++ m.dumpRegisters ++ "| Memory |\n")

end Machine

end RegisterMachine
