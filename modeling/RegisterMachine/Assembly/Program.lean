import RegisterMachine.Assembly.Listing
import RegisterMachine.Fault

/-!
# Programs

A listing becomes a program when every statement fits the shape of its opcode and every target
names a label or an instruction index. Labels are checked first; then the first ill-formed
statement is reported.
-/

set_option autoImplicit false

namespace RegisterMachine.Assembly

inductive OperandKind where
  | register
  | address
  | immediate
  /-- A label or an absolute instruction index. -/
  | target
  deriving DecidableEq, Repr, Inhabited

def OperandKind.text : OperandKind → String
  | .register => "register"
  | .address => "off($reg)"
  | .immediate => "integer"
  | .target => "label or index"

/-- The operand kinds that an opcode takes, in order. -/
def shape : Opcode → List OperandKind
  | .push => [.register]
  | .pop => []
  | .lw => [.register, .address]
  | .sw => [.register, .address]
  | .li => [.register, .immediate]
  | .mv => [.register, .register]
  | .add => [.register, .register, .register]
  | .sub => [.register, .register, .register]
  | .mul => [.register, .register, .register]
  | .div => [.register, .register, .register]
  | .addi => [.register, .register, .immediate]
  | .subi => [.register, .register, .immediate]
  | .muli => [.register, .register, .immediate]
  | .divi => [.register, .register, .immediate]
  | .and => [.register, .register, .register]
  | .or => [.register, .register, .register]
  | .not => [.register, .register]
  | .del => [.register]
  | .print => [.register]
  | .printchar => [.register]
  | .beq => [.register, .register, .target]
  | .bleq => [.register, .register, .target]
  | .b => [.target]
  | .jal => [.target]
  | .jr => [.register]
  | .halt => []
  | .invalid => []
  | .undefined _ => []

inductive ResolveProblem where
  | duplicateLabel (name : String)
  | unknownMnemonic (mnemonic : String)
  | operandCount (op : Opcode) (expected got : Nat)
  | wrongKind (op : Opcode) (position : Nat) (kind : OperandKind)
  | unknownRegister (token : String)
  | invalidNumber (token : String)
  | undefinedLabel (name : String)
  deriving DecidableEq, Repr, Inhabited

def ResolveProblem.message : ResolveProblem → String
  | .duplicateLabel name => "duplicate label " ++ Quoted.text name
  | .unknownMnemonic mnemonic => "unknown mnemonic: " ++ mnemonic
  | .operandCount op expected got =>
    op.name ++ " takes " ++ Decimal.ofNat expected ++ " operands, got " ++ Decimal.ofNat got
  | .wrongKind op position kind =>
    op.name ++ " operand " ++ Decimal.ofNat position ++ ": expected " ++ kind.text
  | .unknownRegister token => "unknown register: " ++ token
  | .invalidNumber token => "invalid number: " ++ token
  | .undefinedLabel name => "undefined label: " ++ name

structure ResolveError where
  line : Nat
  problem : ResolveProblem
  deriving DecidableEq, Repr, Inhabited

def ResolveError.message (e : ResolveError) : String :=
  "line " ++ Decimal.ofNat e.line ++ ": " ++ e.problem.message

/-- The index of the first statement behind each label, in the order of definition. -/
abbrev Labels := List (String × Nat)

/-- Collects the labels of a listing whose first statement has the index `next`. -/
def collectLabels : List Line → Nat → Labels → Except ResolveError Labels
  | [], _, known => .ok known
  | .statement _ :: rest, next, known => collectLabels rest (next + 1) known
  | .label position name :: rest, next, known =>
    match known.lookup name with
    | some _ => .error { line := position.line, problem := .duplicateLabel name }
    | none => collectLabels rest next (known ++ [(name, next)])

def labels (lines : List Line) : Except ResolveError Labels :=
  collectLabels lines 0 []

def resolveRegister (token : String) : Except ResolveProblem String :=
  match Register.ofToken? token with
  | some r => .ok r.name
  | none => .error (.unknownRegister token)

def resolveNumber (token : String) : Except ResolveProblem Int64 :=
  match Decimal.readInt32? token with
  | some n => .ok n
  | none => .error (.invalidNumber token)

/-- The token of an operand in a resolved instruction, and the offset if it is an address. -/
def resolveOperand (known : Labels) (op : Opcode) (position : Nat) (kind : OperandKind)
    (operand : OperandText) : Except ResolveProblem (String × Option Int64) :=
  match kind, operand with
  | .register, .register token => do
    return (← resolveRegister token, none)
  | .address, .address offset base => do
    let register ← resolveRegister base
    match offset with
    | none => return (register, some 0)
    | some token => return (register, some (← resolveNumber token))
  | .immediate, .number token => do
    return (Decimal.ofInt64 (← resolveNumber token), none)
  | .target, .number token => do
    return (Decimal.ofInt64 (← resolveNumber token), none)
  | .target, .name label =>
    match known.lookup label with
    | some index => .ok (Decimal.ofNat index, none)
    | none => .error (.undefinedLabel label)
  | _, _ => .error (.wrongKind op position kind)

/-- Resolves operands against the kinds they must have, from left to right. -/
def resolveOperands (known : Labels) (op : Opcode) :
    Nat → List (OperandKind × Operand) → Except ResolveProblem (List (String × Option Int64))
  | _, [] => .ok []
  | position, (kind, operand) :: rest => do
    let first ← resolveOperand known op position kind operand.text
    return first :: (← resolveOperands known op (position + 1) rest)

/-- Mnemonics are recognised in any case. -/
def opcodeOf (mnemonic : String) : Opcode :=
  Opcode.ofMnemonic (String.ofList (mnemonic.toList.map Char.toLower))

def resolveStatement (known : Labels) (s : Statement) : Except ResolveProblem Instruction := do
  let op := opcodeOf s.mnemonic
  if !op.isValid then throw (.unknownMnemonic s.mnemonic)
  if s.operands.length ≠ (shape op).length then
    throw (.operandCount op (shape op).length s.operands.length)
  let resolved ← resolveOperands known op 1 ((shape op).zip s.operands)
  return Instruction.ofArgs op (resolved.map (·.1)) ((resolved.findSome? (·.2)).getD 0)

def resolveLines (known : Labels) : List Line → Except ResolveError (List Instruction)
  | [] => .ok []
  | .label .. :: rest => resolveLines known rest
  | .statement s :: rest =>
    match resolveStatement known s with
    | .error problem => .error { line := s.position.line, problem }
    | .ok i => do
      return i :: (← resolveLines known rest)

/-- Checks every statement and replaces labels by instruction indices. -/
def resolve (lines : List Line) : Except ResolveError (List Instruction) := do
  let known ← labels lines
  resolveLines known lines

inductive AssemblyError where
  | unread (e : SyntaxError)
  | unresolved (e : ResolveError)
  deriving DecidableEq, Repr, Inhabited

/-- The message; only an error of the text itself mentions the file. -/
def AssemblyError.message (fileName : String) : AssemblyError → String
  | .unread e => e.message fileName
  | .unresolved e => e.message

/-- From assembly text to instructions. -/
def assemble (source : String) : Except AssemblyError (List Instruction) :=
  match parse source with
  | .error e => .error (.unread e)
  | .ok lines =>
    match resolve lines with
    | .error e => .error (.unresolved e)
    | .ok code => .ok code

end RegisterMachine.Assembly
