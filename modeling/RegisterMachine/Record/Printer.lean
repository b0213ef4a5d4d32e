import RegisterMachine.Record.Basic
import RegisterMachine.Text.Hex

/-!
# Records as text

A record is written as a line about the run and a line for each of its steps, with the values divided
by tabs. A file of records starts with a line of its own.
-/

set_option autoImplicit false

namespace RegisterMachine

/-- The first line of a file of records. -/
def Archive.signature : String :=
  "register machine records\n"

def StepRow.line (row : StepRow) : String :=
  "\t".intercalate ["step", Decimal.ofNat row.seq, Decimal.ofInt64 row.pc, row.op, Word.text row.sp,
    Word.text row.hp, Word.text row.a0] ++ "\n"

def RunRow.line (row : RunRow) : String :=
  "\t".intercalate ["run", row.id, Decimal.ofNat row.memSize, Decimal.ofNat row.codeLength,
    Decimal.ofNat row.steps, row.outcome.name, row.outcome.faultKind] ++ "\n"

def Archive.text (a : Archive) : String :=
  a.runs.foldl (fun text run =>
    (a.rows run.id).foldl (fun text row => text ++ row.line) (text ++ run.line)) ""

/-- The usual form of a name of 128 bits: five groups of hexadecimal digits. -/
def RunId.ofNat (n : Nat) : RunId :=
  let digits := Hex.padded 32 n
  let group (start length : Nat) : String := String.ofList ((digits.drop start).take length)
  "-".intercalate [group 0 8, group 8 4, group 12 4, group 16 4, group 20 12]

end RegisterMachine
