import RegisterMachine.Assembly.Listing
import RegisterMachine.Instruction

/-!
# Printed programs and listings

Instructions as assembly text, with or without their indices, and listings as token sequences and
as text.
-/

set_option autoImplicit false

namespace RegisterMachine.Assembly

/-- One instruction a line. -/
def format (code : List Instruction) : String :=
  code.foldl (fun text i => text ++ i.text ++ "\n") ""

/-- A number with zeros in front up to four digits. -/
def padded (n : Nat) : String :=
  let digits := Decimal.ofNat n
  String.ofList (List.replicate (4 - digits.length) '0') ++ digits

/-- One instruction a line, each behind its index, which starts at `first`. -/
def disassembleFrom : Nat → List Instruction → String → String
  | _, [], above => above
  | first, i :: rest, above =>
    disassembleFrom (first + 1) rest (above ++ padded first ++ ": " ++ i.text ++ "\n")

def disassemble (code : List Instruction) : String :=
  disassembleFrom 0 code ""

/-! ### Listings -/

def OperandText.tokenTexts : OperandText → List String
  | .register token => [token]
  | .address none base => ["(", base, ")"]
  | .address (some offset) base => [offset, "(", base, ")"]
  | .number token => [token]
  | .name token => [token]

/-- The tokens of a line that carry its meaning: no line ends and no commas. -/
def Line.tokenTexts : Line → List String
  | .label _ name => [name, ":"]
  | .statement s => s.mnemonic :: s.operands.flatMap fun o => o.text.tokenTexts

def OperandText.source (o : OperandText) : String :=
  o.tokenTexts.foldl (· ++ ·) ""

/-- A line of text: a statement has a blank behind its mnemonic and commas between operands. -/
def Line.source : Line → String
  | .label _ name => name ++ ":\n"
  | .statement s =>
    s.mnemonic ++ " " ++ ", ".intercalate (s.operands.map fun o => o.text.source) ++ "\n"

def listingSource (lines : List Line) : String :=
  lines.foldl (fun text line => text ++ line.source) ""

end RegisterMachine.Assembly
