import RegisterMachine.Machine.Step

/-!
# Executions follow plans

An instruction at work checks and writes by turns. It still leaves exactly what `Machine.plan`
decides on in the state before it: the changed machine, or the machine as it was. A push past the
arena is the only one that leaves half of its work behind.
-/

set_option autoImplicit false

namespace RegisterMachine

open Machine

def Change.events : Change → List Event
  | .print text => [.printed text]
  | _ => []

def Change.printed : Change → List String
  | .print text => [text]
  | _ => []

theorem Change.events_eq (change : Change) : change.events = change.printed.map Event.printed := by
  cases change <;> rfl

/-- What is left of a machine once this has been decided on. -/
def Machine.carryOut (m : Machine) : Except Obstacle Change → EStateM.Result Obstacle Workspace Unit
  | .ok change => .ok () { machine := m.apply change, printed := change.printed }
  | .error (.overrun sp error) =>
    .error (.fault (.memory error)) { machine := m.setRegister .sp (some sp) }
  | .error obstacle => .error obstacle { machine := m }

namespace Execution

/-- The execution leaves what is left of the decision. -/
def Follows (m : Machine) (x : Execution Unit) (decision : Except Obstacle Change) : Prop :=
  x { machine := m } = m.carryOut decision

section Rules

variable {α : Type} {m : Machine} {i : Instruction}

/-- A check comes in front of both. -/
theorem Follows.require {check : Machine → Except Cause α} {found : Except Cause α}
    {next : α → Execution Unit} {choice : α → Except Obstacle Change} (hcheck : check m = found)
    (h : ∀ a, found = .ok a → Follows m (next a) (choice a)) :
    Follows m (require check >>= next) (demand found >>= choice) := by
  unfold Follows
  show EStateM.bind (Execution.require check) next { machine := m } = _
  cases found with
  | error cause => simp only [EStateM.bind, Execution.require, hcheck]; rfl
  | ok a =>
    simp only [EStateM.bind, Execution.require, hcheck]
    exact h a rfl

/-- The word of an operand is looked up once its register is known. -/
theorem demand_operandWord {slot : Fin 3} {choice : Word → Except Obstacle Change} :
    (demand (m.operandWord i slot) >>= choice) =
      demand (operandRegister i slot) >>= fun r => choice (m.registers.get r) := by
  unfold operandWord
  cases operandRegister i slot <;> rfl

theorem Follows.ite {p : Prop} [Decidable p] {x y : Execution Unit}
    {choice other : Except Obstacle Change} (hthen : p → Follows m x choice)
    (helse : ¬ p → Follows m y other) :
    Follows m (if p then x else y) (if p then choice else other) := by
  by_cases hp : p
  · rw [if_pos hp, if_pos hp]
    exact hthen hp
  · rw [if_neg hp, if_neg hp]
    exact helse hp

/-- An address is checked in front of a write to its cell. -/
theorem Follows.contained {address : Int64} {next : Execution Unit} {change : Change}
    (h : Follows m next (.ok change)) :
    Follows m (do contained address; next)
      (if m.arena.contains address then .ok change
        else .error (.fault (.memory (m.arena.outside address)))) := by
  have hchecked : (if m.arena.contains address then Except.ok change
      else .error (.fault (.memory (m.arena.outside address)))) =
      demand (if m.arena.contains address then .ok ()
        else .error (.memory (m.arena.outside address))) >>= fun () => .ok change := by
    split <;> rfl
  rw [hchecked]
  exact .require rfl fun () _ => h

theorem follows_store (address : Int64) (value : Word) :
    Follows m (store address value)
      (if m.arena.contains address then .ok (.store address value)
        else .error (.fault (.memory (m.arena.outside address)))) :=
  .contained rfl

/-- The stack top has moved when the arena refuses the word. -/
theorem follows_push : Follows m (push i) (m.planPush i) := by
  refine .require rfl fun rs _ => .require rfl fun sp _ => ?_
  have moved : store (sp - 1) ((m.registers.set .sp (some (sp - 1))).get rs)
      { machine := m.setRegister .sp (some (sp - 1)) } = _ :=
    follows_store (m := m.setRegister .sp (some (sp - 1))) _ _
  refine Eq.trans moved ?_
  show carryOut _ (if m.arena.contains (sp - 1) then _ else _) = _
  by_cases hcontains : m.arena.contains (sp - 1) = true
  · simp only [if_pos hcontains]
    rfl
  · simp only [if_neg hcontains]
    rfl

theorem follows_pop : Follows m pop m.planPop :=
  .require rfl fun _ _ => rfl

theorem follows_load : Follows m (load i) (m.planLoad i) :=
  .require rfl fun _ _ => .require rfl fun _ _ => .require rfl fun _ _ => rfl

theorem follows_allocate (value : Word) : Follows m (allocate value) (m.planAllocate value) := by
  refine .require rfl fun sp _ => .require rfl fun slot _ => ?_
  exact .ite (fun _ => rfl) fun _ => rfl

theorem follows_storeWord : Follows m (storeWord i) (m.planStore i) := by
  rw [planStore, demand_operandWord]
  refine .require rfl fun rs _ => .require rfl fun rd hrd => ?_
  refine .ite (fun _ => follows_allocate (m.registers.get rs)) fun _ => ?_
  have hbase : m.operandValue i 1 = m.registers.value rd := by rw [operandValue, hrd]; rfl
  exact .require hbase fun base _ => follows_store (base + i.offset) (m.registers.get rs)

theorem follows_loadImmediate : Follows m (loadImmediate i) (planLoadImmediate i) :=
  .require rfl fun _ _ => .require rfl fun _ _ => rfl

theorem follows_move : Follows m (move i) (m.planMove i) := by
  unfold planMove
  refine .require rfl fun rd _ => ?_
  rw [demand_operandWord]
  exact .require rfl fun _ _ => rfl

theorem quotient_ne_overrun {a b sp : Int64} {error : ArenaError} :
    quotient a b ≠ .error (.overrun sp error) := by
  unfold quotient
  split
  · simp
  · split <;> simp

theorem compute_ne_overrun {op : Opcode} {a b sp : Int64} {error : ArenaError} :
    compute op a b ≠ .error (.overrun sp error) := by
  unfold compute
  split
  case h_7 => exact quotient_ne_overrun
  all_goals exact nofun

theorem follows_arithmetic (immediate : Bool) :
    Follows m (arithmetic i immediate) (m.planArithmetic i immediate) := by
  refine .require rfl fun rd _ => .require rfl fun a _ => .require rfl fun b _ => ?_
  cases hresult : compute i.op a b with
  | ok n => rfl
  | error obstacle =>
    cases obstacle with
    | overrun sp error => exact absurd hresult compute_ne_overrun
    | fault cause => rfl
    | trap => rfl

theorem follows_connective (join : Bool → Bool → Bool) :
    Follows m (connective i join) (m.planConnective i join) :=
  .require rfl fun _ _ => .require rfl fun _ _ => .require rfl fun _ _ => rfl

theorem follows_negate : Follows m (negate i) (m.planNot i) :=
  .require rfl fun _ _ => .require rfl fun _ _ => rfl

theorem follows_delete : Follows m (delete i) (m.planDelete i) :=
  .require rfl fun _ _ => .contained rfl

theorem follows_printNumber : Follows m (printNumber i) (m.planPrint i) :=
  .require rfl fun _ _ => rfl

theorem follows_printChar : Follows m (printChar i) (m.planPrintChar i) := by
  refine .require rfl fun n _ => ?_
  cases character? n <;> rfl

/-- A jump that is not taken writes nothing. -/
theorem follows_jumpIf {p : Prop} [Decidable p] (target : Int64) :
    Follows m (if p then jump target else pure ())
      (.ok (if p then .jump target else .nothing)) := by
  rw [apply_ite Except.ok]
  exact .ite (fun _ => rfl) fun _ => rfl

theorem follows_branchEqual : Follows m (branchEqual i) (m.planBranchEqual i) := by
  rw [planBranchEqual, demand_operandWord]
  refine .require rfl fun r _ => ?_
  rw [demand_operandWord]
  exact .require rfl fun s _ => .require rfl fun target _ => follows_jumpIf target

theorem follows_branchLessEqual : Follows m (branchLessEqual i) (m.planBranchLessEqual i) :=
  .require rfl fun _ _ => .require rfl fun _ _ => .require rfl fun target _ => follows_jumpIf target

theorem follows_branch : Follows m (branch i) (planBranch i) :=
  .require rfl fun _ _ => rfl

theorem follows_call : Follows m (call i) (planCall i) :=
  .require rfl fun _ _ => rfl

theorem follows_jumpRegister : Follows m (jumpRegister i) (m.planReturn i) :=
  .require rfl fun _ _ => rfl

end Rules

/-- **An instruction leaves what is decided on before it.** -/
theorem ofInstruction_eq (m : Machine) (i : Instruction) :
    ofInstruction i { machine := m } = m.carryOut (m.plan i) := by
  show Follows m (ofInstruction i) (m.plan i)
  unfold ofInstruction plan
  cases i.op with
  | push => exact follows_push
  | pop => exact follows_pop
  | lw => exact follows_load
  | sw => exact follows_storeWord
  | li => exact follows_loadImmediate
  | mv => exact follows_move
  | add | sub | mul | div => exact follows_arithmetic false
  | addi | subi | muli | divi => exact follows_arithmetic true
  | and => exact follows_connective _
  | or => exact follows_connective _
  | not => exact follows_negate
  | del => exact follows_delete
  | print => exact follows_printNumber
  | printchar => exact follows_printChar
  | beq => exact follows_branchEqual
  | bleq => exact follows_branchLessEqual
  | b => exact follows_branch
  | jal => exact follows_call
  | jr => exact follows_jumpRegister
  | halt | invalid | undefined excess => rfl

end Execution

/-- What executing an instruction shows, in terms of what is decided on. -/
theorem Machine.execute_eq (mode : TraceMode) (m : Machine) (pc : Int64) (i : Instruction) :
    m.execute mode pc i =
      match m.plan i with
      | .error .trap => none
      | .error (.fault cause) =>
        let m := m.fail (Fault.ofCause cause pc i)
        some (m, m.closing mode)
      | .error (.overrun sp error) =>
        let m := (m.setRegister .sp (some sp)).fail (Fault.ofCause (.memory error) pc i)
        some (m, m.closing mode)
      | .ok change =>
        let m := m.apply change
        let seen := change.events ++ [.executed pc i m.view]
        if i.op = .halt then
          let m := m.halt
          some (m, seen ++ m.closing mode)
        else
          some (m, seen ++ progress mode i m) := by
  rw [execute, Execution.ofInstruction_eq]
  cases m.plan i with
  | ok change => simp only [carryOut, change.events_eq]
  | error obstacle => cases obstacle <;> rfl

end RegisterMachine
