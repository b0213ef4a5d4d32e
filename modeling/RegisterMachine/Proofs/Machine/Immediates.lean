import RegisterMachine.Proofs.Machine.Atomicity
import RegisterMachine.Proofs.Machine.Division

/-!
# Arithmetic and its immediate forms

Arithmetic takes the low 32 bits of its operands before it computes. For sums, differences and
products this loses nothing: the result is the residue of the exact one. A quotient is exact for
operands of 32 bits, up to the one that does not fit. An instruction with an immediate does what the
register form does once the number has been loaded into a register that nothing else depends on.
Both forms examine their operands in the same order, so they also agree on the fault.
-/

set_option autoImplicit false

namespace RegisterMachine

open Machine Checks
open Decimal (FitsInt32)

namespace Opcode

/-- The operation that takes a number where `op` takes its second register. -/
def immediate? : Opcode → Option Opcode
  | .add => some .addi
  | .sub => some .subi
  | .mul => some .muli
  | .div => some .divi
  | _ => none

/-- The result in exact integers. Quotients are toward zero. -/
def exact : Opcode → Int → Int → Int
  | .add | .addi => fun a b => a + b
  | .sub | .subi => fun a b => a - b
  | .mul | .muli => fun a b => a * b
  | _ => Int.tdiv

end Opcode

/-! ### Results -/

theorem toInt_toInt32_of_fits {n : Int64} (h : FitsInt32 n.toInt) :
    n.toInt32.toInt = n.toInt := by
  obtain ⟨hlow, hhigh⟩ := h
  rw [Int64.toInt_toInt32, Int.bmod_eq_of_le (by omega) (by omega)]

/-- A number of 32 bits has no low bits only if it is zero. -/
theorem toInt32_ne_of_fits {n : Int64} (h : FitsInt32 n.toInt) (hne : n ≠ 0) : n.toInt32 ≠ 0 := by
  rw [Ne, toInt32_eq_zero]
  intro hdvd
  obtain ⟨hlow, hhigh⟩ := h
  have hzero : n.toInt = 0 := by omega
  exact hne (Int64.toInt_inj.mp hzero)

/-- The operation is one of the four, in one of its two forms. -/
def Opcode.IsArithmetic (op : Opcode) : Prop :=
  (∃ opi, op.immediate? = some opi) ∨ ∃ base : Opcode, base.immediate? = some op

/-- **The result of an operation is the residue of the exact one.** -/
theorem compute_exact {op : Opcode} {a b : Int64} (arith : op.IsArithmetic)
    (divisor : op = .div ∨ op = .divi → FitsInt32 a.toInt ∧ FitsInt32 b.toInt ∧ b ≠ 0) :
    ∃ n, compute op a b = .ok n ∧ (widen n).toInt = (op.exact a.toInt b.toInt).bmod (2 ^ 32) := by
  have sum : (a.toInt32 + b.toInt32).toInt = (a.toInt + b.toInt).bmod (2 ^ 32) := by
    rw [Int32.toInt_add, Int64.toInt_toInt32, Int64.toInt_toInt32, Int.bmod_add_bmod,
      Int.add_bmod_bmod]
  have difference : (a.toInt32 - b.toInt32).toInt = (a.toInt - b.toInt).bmod (2 ^ 32) := by
    rw [Int32.toInt_sub, Int64.toInt_toInt32, Int64.toInt_toInt32, Int.bmod_sub_bmod,
      Int.sub_bmod_bmod]
  have product : (a.toInt32 * b.toInt32).toInt = (a.toInt * b.toInt).bmod (2 ^ 32) := by
    rw [Int32.toInt_mul, Int64.toInt_toInt32, Int64.toInt_toInt32, Int.bmod_mul_bmod,
      Int.mul_bmod_bmod]
  have quotient : op = .div ∨ op = .divi → ∃ n, quotient a b = .ok n ∧
      n.toInt = (a.toInt.tdiv b.toInt).bmod (2 ^ 32) := by
    intro hop
    obtain ⟨ha, hb, hne⟩ := divisor hop
    refine ⟨a.toInt32 / b.toInt32, ?_, ?_⟩
    · rw [Machine.quotient, if_neg hne, if_neg (toInt32_ne_of_fits hb hne)]
    · rw [Int32.toInt_div, toInt_toInt32_of_fits ha, toInt_toInt32_of_fits hb]
  simp only [widen, Int32.toInt_toInt64]
  rcases arith with ⟨opi, paired⟩ | ⟨base, paired⟩
  · cases op <;> cases paired
    · exact ⟨_, rfl, sum⟩
    · exact ⟨_, rfl, difference⟩
    · exact ⟨_, rfl, product⟩
    · exact quotient (.inl rfl)
  · cases base <;> cases paired
    · exact ⟨_, rfl, sum⟩
    · exact ⟨_, rfl, difference⟩
    · exact ⟨_, rfl, product⟩
    · exact quotient (.inr rfl)

/-- A divisor of 32 bits gives a quotient or is zero; nothing traps. -/
theorem compute_narrow (op : Opcode) (a : Int64) {b : Int64} (fits : FitsInt32 b.toInt) :
    (∃ n, compute op a b = .ok n) ∨
      compute op a b = .error (.fault (.condition .divisionByZero)) := by
  have divided : (∃ n, quotient a b = .ok n) ∨
      quotient a b = .error (.fault (.condition .divisionByZero)) := by
    unfold quotient
    by_cases hzero : b = 0
    · exact .inr (if_pos hzero)
    · rw [if_neg hzero, if_neg (toInt32_ne_of_fits fits hzero)]
      exact .inl ⟨_, rfl⟩
  unfold compute
  split
  case h_7 => exact divided
  all_goals exact .inl ⟨_, rfl⟩

theorem compute_immediate {op opi : Opcode} (paired : op.immediate? = some opi) (a b : Int64) :
    compute opi a b = compute op a b := by
  cases op <;> cases paired <;> rfl

/-- On `m`, the arithmetic instruction computes with `a` and `b` for the register `rd`. -/
structure Operates (m : Machine) (i : Instruction) (rd : Register) (a b : Int64) : Prop where
  target : Register.ofToken? i.arg1 = some rd
  left : ∃ r, Register.ofToken? i.arg2 = some r ∧ m.registers.get r = some a
  right : (∃ opi, i.op.immediate? = some opi) ∧
      (∃ r, Register.ofToken? i.arg3 = some r ∧ m.registers.get r = some b) ∨
    (∃ op : Opcode, op.immediate? = some i.op) ∧ Decimal.readInt32? i.arg3 = some b

section Plans

variable {m : Machine} {i : Instruction} {rd : Register} {a b : Int64}

theorem plan_registerForm {opi : Opcode} (paired : i.op.immediate? = some opi) :
    m.plan i = m.planArithmetic i false := by
  unfold plan
  cases op : i.op <;> rw [op] at paired <;> cases paired

theorem plan_immediateForm {op : Opcode} (paired : op.immediate? = some i.op) :
    m.plan i = m.planArithmetic i true := by
  unfold plan
  cases op <;> simp only [Opcode.immediate?, reduceCtorEq, Option.some.injEq] at paired <;>
    rw [← paired]

theorem op_ne_halt_of_isArithmetic (h : i.op.IsArithmetic) : i.op ≠ .halt := by
  intro op
  rw [op] at h
  rcases h with ⟨_, paired⟩ | ⟨base, paired⟩
  · cases paired
  · cases base <;> cases paired

namespace Operates

theorem isArithmetic (h : Operates m i rd a b) : i.op.IsArithmetic :=
  h.right.imp And.left And.left

theorem plan_eq (h : Operates m i rd a b) :
    m.plan i = compute i.op a b >>= fun n => .ok (.assign rd (some (widen n))) := by
  have htarget : demand (operandRegister i 0) = .ok rd :=
    demand_eq_ok.mpr (operandRegister_eq_ok.mpr h.target)
  have hleft : demand (m.operandValue i 1) = .ok a :=
    demand_eq_ok.mpr (operandValue_eq_ok.mpr h.left)
  rcases h.right with ⟨⟨opi, paired⟩, right⟩ | ⟨⟨op, paired⟩, right⟩
  · have hright : demand (m.operandValue i 2) = .ok b :=
      demand_eq_ok.mpr (operandValue_eq_ok.mpr right)
    simp only [plan_registerForm paired, planArithmetic, htarget, hleft, Bool.false_eq_true,
      if_false, hright, ok_bind, pure_eq]
  · have hright : demand (operandNumber i 2) = .ok b :=
      demand_eq_ok.mpr (operandNumber_eq_ok.mpr right)
    simp only [plan_immediateForm paired, planArithmetic, htarget, hleft, if_true, hright, ok_bind,
      pure_eq]

end Operates

end Plans

/-! ### Quiet steps -/

/-- The next step prints nothing and leads to `m'`. -/
def Machine.Quietly (mode : TraceMode) (m m' : Machine) : Prop :=
  ∃ events, m.step mode = some (m', events) ∧ ∀ text, Event.printed text ∉ events

section Quiet

variable {mode : TraceMode} {m : Machine} {i : Instruction}

theorem Machine.Issues.quietly_assign {r : Register} {v : Word} (h : m.Issues i)
    (plan : m.plan i = .ok (.assign r v)) (other : i.op ≠ .halt) :
    m.Quietly mode (m.started.advance.setRegister r v) := by
  have way : Stepped mode m _ _ := .executed h.running h.gap h.fetched plan rfl
  rw [settled, if_neg other] at way
  refine ⟨_, step_of_stepped way, fun text => ?_⟩
  simp [printed_notMem_opening, printed_notMem_aftermath, Change.events]

theorem Machine.Issues.quietly_fault {cause : Cause} (h : m.Issues i)
    (plan : m.plan i = .error (.fault cause)) :
    m.Quietly mode (m.started.advance.fail (.ofCause cause m.pc i)) := by
  have way : Stepped mode m _ _ := .faulted h.running h.gap h.fetched plan rfl
  exact ⟨_, step_of_stepped way, printed_notMem_of_faulted way rfl⟩

theorem Session.step?_quietly {s : Session} {m' : Machine} (h : s.machine.Quietly s.mode m') :
    ∃ s', s.step? = some s' ∧ s'.machine = m' ∧ s'.mode = s.mode ∧ s'.output = s.output := by
  obtain ⟨events, taken, silent⟩ := h
  obtain ⟨hmachine, hmode, -⟩ := foldl_observe_frame events { s with machine := m' }
  exact ⟨_, step?_of_step taken, hmachine, hmode, output_foldl_observe_of_notMem silent⟩

end Quiet

/-! ### Machines that differ in one register -/

/-- The machines may have different programs at different places; otherwise they differ at most in
the register `t`, and both run, or have stopped at faults of the same cause. -/
structure Machine.AgreesOff (t : Register) (m w : Machine) : Prop where
  registers : ∀ r, r ≠ t → m.registers.get r = w.registers.get r
  arena : m.arena = w.arena
  heap : m.heap = w.heap
  live : m.live = w.live
  status : m.status.number = w.status.number
  fault : m.fault?.map (fun f => (f.kind, f.cause)) = w.fault?.map fun f => (f.kind, f.cause)

namespace Machine.AgreesOff

variable {t : Register} {m w : Machine}

theorem isRunning_eq (h : m.AgreesOff t w) : m.isRunning = w.isRunning := by
  have hstatus := h.status
  unfold isRunning
  generalize m.status = status at hstatus ⊢
  generalize w.status = status' at hstatus ⊢
  cases status <;> cases status' <;> simp [Status.number] at hstatus ⊢

theorem checkGap_eq (h : m.AgreesOff t w) (apart : t ≠ .sp ∧ t ≠ .hp) :
    m.checkGap = w.checkGap := by
  simp only [checkGap, Registers.value, h.registers .sp apart.1.symm,
    h.registers .hp apart.2.symm, h.heap]

/-- Both write the same word to the same register. -/
theorem assigned (h : m.AgreesOff t w) (r : Register) (v : Word) :
    (m.started.advance.setRegister r v).AgreesOff t (w.started.advance.setRegister r v) where
  registers s hs := by
    show (m.registers.set r v).get s = (w.registers.set r v).get s
    rw [Registers.get_set, Registers.get_set, h.registers s hs]
  arena := h.arena
  heap := h.heap
  live := h.live
  status := h.status
  fault := h.fault

/-- One of them writes to the register that does not matter. -/
theorem scratched (h : m.AgreesOff t w) (v : Word) :
    m.AgreesOff t (w.started.advance.setRegister t v) where
  registers s hs := by
    show m.registers.get s = (w.registers.set t v).get s
    rw [Registers.get_set, if_neg hs, h.registers s hs]
  arena := h.arena
  heap := h.heap
  live := h.live
  status := h.status
  fault := h.fault

theorem failed (h : m.AgreesOff t w) (cause : Cause) (pc pc' : Int64) (i j : Instruction) :
    (m.started.advance.fail (.ofCause cause pc i)).AgreesOff t
      (w.started.advance.fail (.ofCause cause pc' j)) where
  registers := h.registers
  arena := h.arena
  heap := h.heap
  live := h.live
  status := rfl
  fault := rfl

end Machine.AgreesOff

/-! ### Immediate forms -/

/-- An arithmetic instruction with an immediate, and a register to do without the immediate. The
operand tokens are arbitrary; one that names no register faults in both forms. -/
structure ImmediateForm where
  op : Opcode
  opi : Opcode
  paired : op.immediate? = some opi
  rd : String
  rs : String
  numeral : String
  n : Int64
  reads : Decimal.readInt32? numeral = some n
  token : String
  scratch : Register
  names : Register.ofToken? token = some scratch
  unread : Register.ofToken? rs ≠ some scratch
  apart : scratch ≠ .sp ∧ scratch ≠ .hp

namespace ImmediateForm

variable (f : ImmediateForm) {m w : Machine}

def instruction : Instruction :=
  .ofArgs f.opi [f.rd, f.rs, f.numeral] 0

/-- Loads the number into the scratch register. -/
def loading : Instruction :=
  .ofArgs .li [f.token, f.numeral] 0

/-- The register form, with the scratch register in the place of the number. -/
def computing : Instruction :=
  .ofArgs f.op [f.rd, f.rs, f.token] 0

theorem plan_loading : m.plan f.loading = .ok (.assign f.scratch (some f.n)) :=
  planLoadImmediate_eq rfl f.names f.reads

/-- The first operand is read in the same way. -/
theorem operandValue_eq (h : m.AgreesOff f.scratch w) :
    w.operandValue f.computing 1 = m.operandValue f.instruction 1 := by
  have hregister : operandRegister f.computing 1 = operandRegister f.instruction 1 := rfl
  unfold operandValue
  rw [hregister]
  cases hr : operandRegister f.instruction 1 with
  | error cause => rfl
  | ok r =>
    have hne : r ≠ f.scratch := by
      intro he
      have hsource : f.instruction.arg 1 = f.rs := rfl
      have named := operandRegister_eq_ok.mp hr
      rw [hsource, he] at named
      exact f.unread named
    simp only [ok_bind, Registers.value, h.registers r hne]

/-- **Behind the load, the register form decides on what the immediate form decides on.** -/
theorem plan_computing (h : m.AgreesOff f.scratch w)
    (loaded : w.registers.get f.scratch = some f.n) :
    w.plan f.computing = m.plan f.instruction := by
  have htarget : operandRegister f.computing 0 = operandRegister f.instruction 0 := rfl
  have hregister : demand (w.operandValue f.computing 2) = .ok f.n :=
    demand_eq_ok.mpr (operandValue_eq_ok.mpr ⟨f.scratch, f.names, loaded⟩)
  have hnumber : demand (operandNumber f.instruction 2) = .ok f.n :=
    demand_eq_ok.mpr (operandNumber_eq_ok.mpr f.reads)
  have hcompute : ∀ a, compute f.computing.op a f.n = compute f.instruction.op a f.n :=
    fun a => (compute_immediate f.paired a f.n).symm
  rw [plan_registerForm f.paired, plan_immediateForm f.paired]
  simp only [planArithmetic, htarget, f.operandValue_eq h, Bool.false_eq_true, if_false, if_true,
    hregister, hnumber, ok_bind, hcompute]

/-- The immediate form assigns a register or faults. -/
theorem plan_instruction (m : Machine) : (∃ r v, m.plan f.instruction = .ok (.assign r v)) ∨
    ∃ cause, m.plan f.instruction = .error (.fault cause) := by
  have hnumber : operandNumber f.instruction 2 = .ok f.n := operandNumber_eq_ok.mpr f.reads
  rw [plan_immediateForm f.paired, planArithmetic, if_pos rfl, hnumber]
  cases operandRegister f.instruction 0 with
  | error cause => exact .inr ⟨cause, rfl⟩
  | ok rd =>
    cases m.operandValue f.instruction 1 with
    | error cause => exact .inr ⟨cause, rfl⟩
    | ok a =>
      have fits := Decimal.fitsInt32_of_readInt32? f.reads
      rcases compute_narrow f.instruction.op a fits with ⟨n, hn⟩ | hzero
      · exact .inl ⟨rd, some (widen n), by simp only [demand, Except.mapError, ok_bind, hn, pure_eq]⟩
      · refine .inr ⟨.condition .divisionByZero, ?_⟩
        simp only [demand, Except.mapError, ok_bind, hzero, error_bind]

/-- The step of the immediate form and the second step of the two. -/
theorem exists_steps (h : m.AgreesOff f.scratch w) (issued : m.Issues f.instruction)
    (issued' : w.Issues f.computing) (loaded : w.registers.get f.scratch = some f.n)
    (mode mode' : TraceMode) :
    ∃ m' w', m.Quietly mode m' ∧ w.Quietly mode' w' ∧ m'.AgreesOff f.scratch w' := by
  have hplan := f.plan_computing h loaded
  rcases f.plan_instruction m with ⟨r, v, assigned⟩ | ⟨cause, refused⟩
  · have other : f.instruction.op ≠ .halt := op_ne_halt_of_isArithmetic (.inr ⟨f.op, f.paired⟩)
    have other' : f.computing.op ≠ .halt := op_ne_halt_of_isArithmetic (.inl ⟨f.opi, f.paired⟩)
    exact ⟨_, _, issued.quietly_assign assigned other,
      issued'.quietly_assign (hplan.trans assigned) other', h.assigned r v⟩
  · exact ⟨_, _, issued.quietly_fault refused, issued'.quietly_fault (hplan.trans refused),
      h.failed cause _ _ _ _⟩

end ImmediateForm

/-- The machines differ at most in `t`, in their programs and in their places, and the same has been
printed. -/
structure Session.AgreesOff (t : Register) (s u : Session) : Prop where
  machine : s.machine.AgreesOff t u.machine
  output : s.output = u.output

/-- **The immediate form does what the load and the register form do.** -/
theorem ImmediateForm.exists_sessions (f : ImmediateForm) {s u : Session}
    (h : s.AgreesOff f.scratch u) (issued : s.machine.Issues f.instruction)
    (first : u.machine.fetch? = some f.loading)
    (second : u.machine.advance.fetch? = some f.computing) :
    ∃ s' u', s.step? = some s' ∧ u.serve? [.step, .step] = some u' ∧
      s'.AgreesOff f.scratch u' := by
  have running := h.machine.isRunning_eq.symm.trans issued.running
  have gap := (h.machine.checkGap_eq f.apart).symm.trans issued.gap
  obtain ⟨u₁, taken₁, hmachine₁, hmode₁, hout₁⟩ := Session.step?_quietly
    (Machine.Issues.quietly_assign ⟨running, gap, first⟩ f.plan_loading
      (show Opcode.li ≠ .halt by decide))
  have agrees := h.machine.scratched (some f.n)
  rw [← hmachine₁] at agrees
  have issued' : u₁.machine.Issues f.computing := by
    refine ⟨agrees.isRunning_eq.symm.trans issued.running,
      (agrees.checkGap_eq f.apart).symm.trans issued.gap, ?_⟩
    rw [hmachine₁]
    exact second
  have loaded : u₁.machine.registers.get f.scratch = some f.n := by
    rw [hmachine₁]
    show (u.machine.registers.set f.scratch (some f.n)).get f.scratch = some f.n
    rw [Registers.get_set, if_pos rfl]
  obtain ⟨m', w', hm, hw, hagrees⟩ := f.exists_steps agrees issued issued' loaded s.mode u₁.mode
  obtain ⟨s', taken, rfl, -, hout⟩ := Session.step?_quietly hm
  obtain ⟨u', taken₂, rfl, -, hout₂⟩ := Session.step?_quietly hw
  refine ⟨s', u', taken, ?_, hagrees, ?_⟩
  · have hcall : u.call? .step = some u₁ := taken₁
    have hcall₂ : u₁.call? .step = some u' := taken₂
    rw [Session.serve?_cons hcall, Session.serve?_cons hcall₂]
    rfl
  · rw [hout, hout₂, hout₁, h.output]

/-- **Arithmetic is exact modulo 2^32, and its two forms agree.** Whatever 64-bit numbers the
operands hold, an issued instruction stores the signed residue of the exact sum, difference or
product; for operands of 32 bits and a divisor other than zero it stores that of the quotient toward
zero. From states that differ at most in a scratch register, an immediate form has the same effect on
all other registers, the arena, the printed text and the fault as a load of its number into the
scratch register followed by the register form. -/
theorem arithmetic_modular :
    (∀ {mode : TraceMode} {m : Machine} {i : Instruction} {rd : Register} {a b : Int64},
      m.Issues i → Operates m i rd a b →
      (i.op = .div ∨ i.op = .divi → FitsInt32 a.toInt ∧ FitsInt32 b.toInt ∧ b ≠ 0) →
        ∃ v : Int64, v.toInt = (i.op.exact a.toInt b.toInt).bmod (2 ^ 32) ∧
          m.Quietly mode (m.started.advance.setRegister rd (some v))) ∧
    ∀ (f : ImmediateForm) {s u : Session}, s.AgreesOff f.scratch u →
      s.machine.Issues f.instruction → u.machine.fetch? = some f.loading →
      u.machine.advance.fetch? = some f.computing →
        ∃ s' u', s.step? = some s' ∧ u.serve? [.step, .step] = some u' ∧
          s'.AgreesOff f.scratch u' := by
  refine ⟨fun issued operates divisor => ?_, fun f => f.exists_sessions⟩
  obtain ⟨n, computed, hexact⟩ := compute_exact operates.isArithmetic divisor
  refine ⟨widen n, hexact, issued.quietly_assign ?_ ?_⟩
  · rw [operates.plan_eq, computed, ok_bind]
  · exact op_ne_halt_of_isArithmetic operates.isArithmetic

/-- The lowest 32-bit number is to be divided by -1, with `$a0` to spare. -/
def divideLowest : ImmediateForm where
  op := .div
  opi := .divi
  paired := rfl
  rd := "$t1"
  rs := "$t1"
  numeral := "-1"
  n := -1
  reads := by decide
  token := "$a0"
  scratch := .a0
  names := by decide
  unread := by decide
  apart := by decide

/-- A machine that holds the lowest 32-bit number, with a program to divide it. -/
def holdsLowest (code : Array Instruction) : Machine :=
  { Machine.load 8 code with registers := (Registers.ofSize 8).set .t1 (some (-2147483648)) }

/-- The one quotient that does not fit wraps to its dividend, and does so in both forms. -/
theorem arithmetic_modular_lowest :
    (∃ v : Int64, v.toInt = -2 ^ 31 ∧ (holdsLowest #[divideLowest.instruction]).Quietly .off
      ((holdsLowest #[divideLowest.instruction]).started.advance.setRegister .t1 (some v))) ∧
    ∃ s' u', Session.step? { machine := holdsLowest #[divideLowest.instruction] } = some s' ∧
      Session.serve? { machine := holdsLowest #[divideLowest.loading, divideLowest.computing] }
        [.step, .step] = some u' ∧ s'.AgreesOff .a0 u' := by
  have issued : (holdsLowest #[divideLowest.instruction]).Issues divideLowest.instruction :=
    ⟨by decide, by decide, by decide⟩
  have operates : Operates (holdsLowest #[divideLowest.instruction]) divideLowest.instruction .t1
      (-2147483648) (-1) :=
    ⟨by decide, ⟨.t1, by decide, rfl⟩, .inr ⟨⟨.div, rfl⟩, divideLowest.reads⟩⟩
  obtain ⟨v, hv, quietly⟩ := arithmetic_modular.1 issued operates fun _ =>
    ⟨by decide, by decide, by decide⟩
  have hlowest : (Opcode.exact .divi (-2147483648 : Int64).toInt (-1 : Int64).toInt).bmod (2 ^ 32) =
      -2 ^ 31 := by decide
  have agrees : Session.AgreesOff divideLowest.scratch
      { machine := holdsLowest #[divideLowest.instruction] }
      { machine := holdsLowest #[divideLowest.loading, divideLowest.computing] } :=
    ⟨⟨fun _ _ => rfl, rfl, rfl, rfl, rfl, rfl⟩, rfl⟩
  have forms := arithmetic_modular.2 divideLowest agrees issued rfl rfl
  exact ⟨⟨v, hv.trans hlowest, quietly⟩, forms⟩

end RegisterMachine
