import RegisterMachine.Proofs.Assembly.Naming
import RegisterMachine.Proofs.Assembly.Resolution
import RegisterMachine.Proofs.Machine.Bounds
import RegisterMachine.Proofs.Machine.Effects

/-!
# Where the branches of a program lead

The code of a listing holds one instruction for each statement, in their order, which encodes it
slot by slot. A target that is written as a label holds the number of statements in front of the
definition, and a machine that takes the branch goes on with the first statement behind the
definition. At the end of the listing there is none, and the machine stops for want of it.
-/

set_option autoImplicit false

namespace RegisterMachine

open Checks Machine

namespace Assembly

/-! ### Encodings -/

/-- The token that an operand of this kind becomes and, for an address, the offset. -/
inductive Encodes (lines : List Line) : OperandKind → OperandText → String → Option Int → Prop
  | register {token : String} {r : Register} (names : r.NamedBy token) :
      Encodes lines .register (.register token) r.name none
  | base {base : String} {r : Register} (names : r.NamedBy base) :
      Encodes lines .address (.address none base) r.name (some 0)
  | address {offset base : String} {r : Register} {n : Int} (names : r.NamedBy base)
      (number : Decimal.Numeral offset n) :
      Encodes lines .address (.address (some offset) base) r.name (some n)
  | immediate {token : String} {n : Int} (number : Decimal.Numeral token n) :
      Encodes lines .immediate (.number token) (Decimal.ofInt n) none
  | index {token : String} {n : Int} (number : Decimal.Numeral token n) :
      Encodes lines .target (.number token) (Decimal.ofInt n) none
  | label {label : String} {before after : List Line} (defines : Defines lines label before after) :
      Encodes lines .target (.name label) (Decimal.ofNat (statements before).length) none

/-- The instruction that a statement of the listing stands for. -/
structure EncodedAs (lines : List Line) (s : Statement) (i : Instruction) : Prop where
  operation : i.op.NamedBy s.mnemonic
  count : s.operands.length = (shape i.op).length
  slots : ∀ {slot : Fin 3} {kind : OperandKind} {operand : Operand},
    (shape i.op)[slot.val]? = some kind → s.operands[slot.val]? = some operand →
      ∃ offset, Encodes lines kind operand.text (i.arg slot) offset ∧
        ∀ n, offset = some n → i.offset.toInt = n
  unused : ∀ {slot : Fin 3}, (shape i.op).length ≤ slot.val → i.arg slot = ""
  offset : .address ∉ shape i.op → i.offset = 0

section Operands

variable {lines : List Line} {op : Opcode} {position : Nat} {kind : OperandKind}
  {text : OperandText} {token : String}

/-- Only an address comes with an offset. -/
theorem Encodes.eq_none {offset : Option Int} (h : Encodes lines kind text token offset)
    (hkind : kind ≠ .address) : offset = none := by
  cases h with
  | base | address => exact absurd rfl hkind
  | _ => rfl

theorem resolveRegister_named {r : String} (h : resolveRegister token = .ok r) :
    ∃ s : Register, s.NamedBy token ∧ s.name = r := by
  unfold resolveRegister at h
  split at h
  · next s hs => exact ⟨s, Register.namedBy_iff.mpr hs, Except.ok.inj h⟩
  · cases h

theorem resolveNumber_numeral {n : Int64} (h : resolveNumber token = .ok n) :
    Decimal.Numeral token n.toInt := by
  obtain ⟨v, hv, rfl⟩ := Decimal.readInt32?_eq_some.mp (resolveNumber_eq_ok.mp h)
  rwa [Decimal.toInt_ofInt hv.2]

/-- **A resolved operand is the encoding of its text.** -/
theorem encodes_of_resolveOperand (distinct : (labelNames lines).Nodup) {offset : Option Int64}
    (h : resolveOperand (labelPlaces 0 lines) op position kind text = .ok (token, offset)) :
    Encodes lines kind text token (offset.map Int64.toInt) := by
  unfold resolveOperand at h
  split at h
  · simp only [bind_eq_ok, pure_eq, Except.ok.injEq, Prod.mk.injEq] at h
    obtain ⟨name, hname, rfl, rfl⟩ := h
    obtain ⟨r, names, rfl⟩ := resolveRegister_named hname
    exact .register names
  · simp only [bind_eq_ok] at h
    obtain ⟨name, hname, h⟩ := h
    obtain ⟨r, names, rfl⟩ := resolveRegister_named hname
    split at h
    · obtain ⟨rfl, rfl⟩ := Prod.mk.inj (Except.ok.inj h)
      exact .base names
    · simp only [bind_eq_ok, pure_eq, Except.ok.injEq, Prod.mk.injEq] at h
      obtain ⟨n, hn, rfl, rfl⟩ := h
      exact .address names (resolveNumber_numeral hn)
  · simp only [bind_eq_ok, pure_eq, Except.ok.injEq, Prod.mk.injEq] at h
    obtain ⟨n, hn, rfl, rfl⟩ := h
    exact .immediate (resolveNumber_numeral hn)
  · simp only [bind_eq_ok, pure_eq, Except.ok.injEq, Prod.mk.injEq] at h
    obtain ⟨n, hn, rfl, rfl⟩ := h
    exact .index (resolveNumber_numeral hn)
  · split at h
    · next index hindex =>
      obtain ⟨before, after, defines, rfl⟩ := defines_of_lookup distinct hindex
      obtain ⟨rfl, rfl⟩ := Prod.mk.inj (Except.ok.inj h)
      exact .label defines
    · cases h
  · cases h

theorem length_resolveOperands {known : Labels} {pairs : List (OperandKind × Operand)}
    {resolved : List (String × Option Int64)}
    (h : resolveOperands known op position pairs = .ok resolved) :
    resolved.length = pairs.length := by
  induction pairs generalizing position resolved with
  | nil =>
    obtain rfl := Except.ok.inj h
    rfl
  | cons pair rest ih =>
    rw [resolveOperands] at h
    simp only [bind_eq_ok, pure_eq, Except.ok.injEq] at h
    obtain ⟨entry, -, tail, htail, rfl⟩ := h
    exact congrArg (· + 1) (ih htail)

/-- Operands in front of the first address do not count for the offset. -/
theorem findSome?_drop (distinct : (labelNames lines).Nodup)
    {pairs : List (OperandKind × Operand)} {resolved : List (String × Option Int64)}
    (h : resolveOperands (labelPlaces 0 lines) op position pairs = .ok resolved) {slot : Nat}
    (hother : ∀ x ∈ pairs.take slot, x.1 ≠ .address) :
    resolved.findSome? (·.2) = (resolved.drop slot).findSome? (·.2) := by
  induction pairs generalizing position resolved slot with
  | nil =>
    obtain rfl := Except.ok.inj h
    rw [List.drop_nil]
  | cons pair rest ih =>
    rw [resolveOperands] at h
    simp only [bind_eq_ok, pure_eq, Except.ok.injEq] at h
    obtain ⟨⟨first, offset⟩, hresolved, tail, htail, rfl⟩ := h
    cases slot with
    | zero => rfl
    | succ slot =>
      rw [List.take_succ_cons, List.forall_mem_cons] at hother
      have hnone := (encodes_of_resolveOperand distinct hresolved).eq_none hother.1
      obtain rfl := Option.map_eq_none_iff.mp hnone
      exact ih htail hother.2

theorem ne_address_of_mem_take_zip {kinds : List OperandKind} {operands : List Operand}
    {slot : Nat} (h : .address ∉ kinds.take slot) :
    ∀ x ∈ (kinds.zip operands).take slot, x.1 ≠ .address := by
  intro x hx he
  rw [List.zip, List.take_zipWith] at hx
  exact h (he ▸ (List.of_mem_zip hx).1)

/-- A shape has one address at most. -/
theorem address_notMem_take {slot : Nat} (h : (shape op)[slot]? = some .address) :
    .address ∉ (shape op).take slot := by
  match slot with
  | 0 => simp
  | 1 => cases op <;> simp_all [shape]
  | 2 => cases op <;> simp_all [shape]
  | slot + 3 =>
    have hlen := shape_length_le op
    have hlt := (List.getElem?_eq_some_iff.mp h).1
    omega

/-- The offset of an instruction is that of its address. -/
theorem findSome?_address (distinct : (labelNames lines).Nodup) {operands : List Operand}
    {resolved : List (String × Option Int64)}
    (h : resolveOperands (labelPlaces 0 lines) op position ((shape op).zip operands) = .ok resolved)
    {slot : Nat} {n : Int64} (haddress : (shape op)[slot]? = some .address)
    (hentry : resolved[slot]? = some (token, some n)) : resolved.findSome? (·.2) = some n := by
  obtain ⟨hlt, hget⟩ := List.getElem?_eq_some_iff.mp hentry
  rw [findSome?_drop distinct h (ne_address_of_mem_take_zip (address_notMem_take haddress)),
    List.drop_eq_getElem_cons hlt, hget]
  rfl

/-- An instruction without an address has no offset. -/
theorem findSome?_no_address (distinct : (labelNames lines).Nodup) {operands : List Operand}
    {resolved : List (String × Option Int64)}
    (h : resolveOperands (labelPlaces 0 lines) op position ((shape op).zip operands) = .ok resolved)
    (hno : .address ∉ shape op) : resolved.findSome? (·.2) = none := by
  have hfront : .address ∉ (shape op).take resolved.length := fun hmem =>
    hno (List.mem_of_mem_take hmem)
  rw [findSome?_drop distinct h (ne_address_of_mem_take_zip hfront), List.drop_length]
  rfl

end Operands

section Programs

variable {lines : List Line} {code : List Instruction}

/-- **A resolved statement is the encoding of its text.** -/
theorem encodedAs_of_resolveStatement (distinct : (labelNames lines).Nodup) {s : Statement}
    {i : Instruction} (h : resolveStatement (labelPlaces 0 lines) s = .ok i) :
    EncodedAs lines s i := by
  obtain ⟨valid, hlen, resolved, hresolved, rfl⟩ := resolveStatement_eq_ok.mp h
  have names := Opcode.namedBy_iff.mpr ⟨valid, rfl⟩
  generalize opcodeOf s.mnemonic = op at names hlen hresolved
  refine ⟨names, hlen, ?_, ?_, ?_⟩
  · intro slot kind operand hkind hoperand
    have hpair : ((shape op).zip s.operands)[slot.val]? = some (kind, operand) :=
      List.getElem?_zip_eq_some.mpr ⟨hkind, hoperand⟩
    obtain ⟨⟨token, offset⟩, hentry, hresolve⟩ := getElem?_resolveOperands hresolved hpair
    have hencodes := encodes_of_resolveOperand distinct hresolve
    refine ⟨offset.map Int64.toInt, ?_, ?_⟩
    · rwa [arg_ofArgs, List.getD_eq_getElem?_getD, List.getElem?_map, hentry]
    · intro n hn
      obtain ⟨offset, rfl, rfl⟩ := Option.map_eq_some_iff.mp hn
      have haddress : kind = .address :=
        Decidable.not_not.mp fun hk => nomatch hencodes.eq_none hk
      subst haddress
      dsimp only [Instruction.ofArgs]
      rw [findSome?_address distinct hresolved hkind hentry]
      rfl
  · intro slot hslot
    change (shape op).length ≤ slot.val at hslot
    have hle : (resolved.map (·.1)).length ≤ slot.val := by
      rw [List.length_map, length_resolveOperands hresolved, List.length_zip]
      omega
    rw [arg_ofArgs, List.getD_eq_getElem?_getD, List.getElem?_eq_none hle]
    rfl
  · intro hno
    dsimp only [Instruction.ofArgs]
    rw [findSome?_no_address distinct hresolved hno]
    rfl

/-- **The code of a listing encodes its statements, in their order.** -/
theorem forall₂_encodedAs (resolved : resolve lines = .ok code) :
    List.Forall₂ (EncodedAs lines) (statements lines) code := by
  simp only [resolve, bind_eq_ok] at resolved
  obtain ⟨known, hlabels, hlines⟩ := resolved
  obtain ⟨distinct, rfl⟩ := labels_eq_ok.mp hlabels
  exact (forall₂_resolveLines hlines).imp fun s i h => encodedAs_of_resolveStatement distinct h

theorem exists_encodedAs (encoded : List.Forall₂ (EncodedAs lines) (statements lines) code)
    {k : Nat} {s : Statement} (hs : (statements lines)[k]? = some s) :
    ∃ i, code[k]? = some i ∧ EncodedAs lines s i := by
  obtain ⟨hlen, hget⟩ := List.forall₂_iff_get.mp encoded
  obtain ⟨hk, rfl⟩ := List.getElem?_eq_some_iff.mp hs
  exact ⟨code[k], List.getElem?_eq_getElem (by omega), hget k hk (by omega)⟩

end Programs

end Assembly

/-! ### Jumps -/

open Assembly

/-- The branch is taken in a state with these registers. A call is taken always. -/
inductive Takes (rs : Registers) (i : Instruction) : Prop
  | equal {r s : Register} (op : i.op = .beq) (left : r.NamedBy i.arg1) (right : s.NamedBy i.arg2)
      (equal : rs.get r = rs.get s)
  | lessEqual {r s : Register} {a b : Int64} (op : i.op = .bleq) (left : r.NamedBy i.arg1)
      (first : rs.get r = some a) (right : s.NamedBy i.arg2) (second : rs.get s = some b)
      (le : a ≤ b)
  | branch (op : i.op = .b)
  | call (op : i.op = .jal)

section Jumps

variable {mode : TraceMode} {m : Machine} {i : Instruction}

theorem Takes.op_ne_halt {rs : Registers} (h : Takes rs i) : i.op ≠ .halt := by
  cases h with
  | equal op | lessEqual op | branch op | call op => rw [op]; decide

theorem target_last {op : Opcode} {slot : Fin 3} (h : (shape op)[slot.val]? = some .target) :
    slot.val + 1 = (shape op).length := by
  cases op with
  | undefined => cases h
  | _ => revert slot; decide

/-- **A taken branch leads to the number in its target slot.** -/
theorem Takes.plan_eq (h : Takes m.registers i) {slot : Fin 3} {t : Int64}
    (hslot : (shape i.op)[slot.val]? = some .target)
    (number : Decimal.readInt32? (i.arg slot) = some t) :
    m.plan i = .ok (.jump t) ∨ m.plan i = .ok (.call t) := by
  have hlast := target_last hslot
  cases h with
  | equal op left right equal =>
    rw [op] at hlast
    obtain rfl : slot = 2 := Fin.ext (Nat.succ.inj hlast)
    left
    rw [plan, op]
    simp only [planBranchEqual, bind_eq_ok, demand_eq_ok, operandWord_eq_ok, operandNumber_eq_ok]
    exact ⟨_, ⟨_, Register.namedBy_iff.mp left, rfl⟩, _, ⟨_, Register.namedBy_iff.mp right, rfl⟩,
      t, number, by rw [if_pos equal]; rfl⟩
  | lessEqual op left first right second le =>
    rw [op] at hlast
    obtain rfl : slot = 2 := Fin.ext (Nat.succ.inj hlast)
    left
    rw [plan, op]
    simp only [planBranchLessEqual, bind_eq_ok, demand_eq_ok, operandValue_eq_ok,
      operandNumber_eq_ok]
    exact ⟨_, ⟨_, Register.namedBy_iff.mp left, first⟩, _,
      ⟨_, Register.namedBy_iff.mp right, second⟩, t, number, by rw [if_pos le]; rfl⟩
  | branch op =>
    rw [op] at hlast
    obtain rfl : slot = 0 := Fin.ext (Nat.succ.inj hlast)
    left
    rw [plan, op]
    simp only [planBranch, bind_eq_ok, demand_eq_ok, operandNumber_eq_ok]
    exact ⟨t, number, rfl⟩
  | call op =>
    rw [op] at hlast
    obtain rfl : slot = 0 := Fin.ext (Nat.succ.inj hlast)
    right
    rw [plan, op]
    simp only [planCall, bind_eq_ok, demand_eq_ok, operandNumber_eq_ok]
    exact ⟨t, number, rfl⟩

/-- A jump moves neither heap nor stack, so that the next fetch is not refused. -/
theorem Takes.jumps (h : Takes m.registers i) (issues : m.Issues i) {slot : Fin 3} {t : Int64}
    (hslot : (shape i.op)[slot.val]? = some .target)
    (number : Decimal.readInt32? (i.arg slot) = some t) :
    ∃ m' events, m.step mode = some (m', events) ∧ m'.pc = t ∧ m'.code = m.code ∧
      m'.isRunning = true ∧ m'.checkGap = .ok () := by
  have hnext : ∀ {change : Change}, m.plan i = .ok change →
      ∃ events, m.step mode = some (m.started.advance.apply change, events) := by
    intro change plan
    have way : Stepped mode m _ _ := .executed issues.running issues.gap issues.fetched plan rfl
    rw [settled, if_neg h.op_ne_halt] at way
    exact ⟨_, step_of_stepped way⟩
  rcases h.plan_eq hslot number with plan | plan
  · obtain ⟨events, taken⟩ := hnext plan
    exact ⟨_, events, taken, rfl, rfl, issues.running, issues.gap⟩
  · obtain ⟨events, taken⟩ := hnext plan
    exact ⟨_, events, taken, rfl, rfl, issues.running, issues.gap⟩

theorem fetch?_of_toInt_pc {n : Nat} (h : m.pc.toInt = n) : m.fetch? = m.code[n]? := by
  have hzero : (0 : Int64).toInt = 0 := rfl
  have hnonneg : ¬ m.pc < 0 := by
    rw [Int64.lt_iff_toInt_lt, hzero]
    omega
  rw [fetch?, if_neg hnonneg, Int64.toNatClampNeg, h, Int.toNat_natCast]

/-- The machine goes on with the first of these statements of the listing or, if there is none,
stops because it finds no instruction. -/
inductive Resumes (mode : TraceMode) (lines : List Line) (m : Machine) : List Statement → Prop
  | fetches {s : Statement} {rest : List Statement} {i : Instruction}
      (encoded : EncodedAs lines s i) (issues : m.Issues i) : Resumes mode lines m (s :: rest)
  | stops {m' : Machine} {events : List Event} {f : Fault}
      (taken : m.step mode = some (m', events)) (fault : m'.status = .faulted f)
      (kind : f.kind = .instructionOutOfRange) : Resumes mode lines m []

variable {lines : List Line} {code : List Instruction}

/-- **A machine goes on with the statement whose number is in the program counter.** -/
theorem resumes_of_toInt_pc (encoded : List.Forall₂ (EncodedAs lines) (statements lines) code)
    {front back : List Statement} (split : statements lines = front ++ back)
    (hcode : m.code = code.toArray) (running : m.isRunning = true) (gap : m.checkGap = .ok ())
    (hpc : m.pc.toInt = front.length) : Resumes mode lines m back := by
  have hfetch : m.fetch? = code[front.length]? := by
    rw [fetch?_of_toInt_pc hpc, hcode, List.getElem?_toArray]
  cases back with
  | nil =>
    have hlen := encoded.length_eq
    rw [split, List.append_nil] at hlen
    rw [List.getElem?_eq_none (by omega)] at hfetch
    exact .stops (step_of_stepped (.lost running gap hfetch rfl)) rfl rfl
  | cons s rest =>
    have hs : (statements lines)[front.length]? = some s := by simp [split]
    obtain ⟨i, hi, hencoded⟩ := exists_encodedAs encoded hs
    exact .fetches hencoded ⟨running, gap, hfetch.trans hi⟩

end Jumps

/-- The program counter reaches this number when the instruction is taken, and the machine goes on
with the statements `back` of the listing. -/
def Leads (lines : List Line) (code : List Instruction) (i : Instruction) (index : Nat)
    (back : List Statement) : Prop :=
  ∀ {mode : TraceMode} {m : Machine}, m.code = code.toArray → m.Issues i → Takes m.registers i →
    ∃ m' events, m.step mode = some (m', events) ∧ m'.pc.toInt = index ∧
      Resumes mode lines m' back

/-- **The code of a listing encodes its statements in their order, and a target that is written as a
label leads behind the definition of the label.** -/
theorem resolved_labels_lead {lines : List Line} {code : List Instruction}
    (resolved : resolve lines = .ok code) :
    code.length = (statements lines).length ∧
      ∀ {k : Nat} {s : Statement}, (statements lines)[k]? = some s →
        ∃ i, code[k]? = some i ∧ EncodedAs lines s i ∧
          ∀ {slot : Fin 3} {operand : Operand} {label : String},
            (shape i.op)[slot.val]? = some .target → s.operands[slot.val]? = some operand →
            operand.text = .name label →
              ∃ before after, Defines lines label before after ∧
                i.arg slot = Decimal.ofNat (statements before).length ∧
                ((statements lines).length < 2 ^ 31 →
                  Leads lines code i (statements before).length (statements after)) := by
  have encoded := forall₂_encodedAs resolved
  refine ⟨encoded.length_eq.symm, fun {k s} hs => ?_⟩
  obtain ⟨i, hi, his⟩ := exists_encodedAs encoded hs
  refine ⟨i, hi, his, fun {slot operand label} hslot hoperand htext => ?_⟩
  obtain ⟨offset, hencodes, -⟩ := his.slots hslot hoperand
  rw [htext] at hencodes
  generalize htoken : i.arg slot = token at hencodes
  cases hencodes with
  | @label _ before after defines =>
    refine ⟨before, after, defines, rfl, fun hlength => ?_⟩
    intro mode m hcode issues takes
    obtain ⟨position, hlines⟩ := defines.split
    have split : statements lines = statements before ++ statements after := by simp [hlines]
    have fits : Decimal.FitsInt32 (statements before).length := by
      rw [split, List.length_append] at hlength
      exact ⟨by omega, by omega⟩
    have number : Decimal.readInt32? (i.arg slot) = some (.ofInt (statements before).length) := by
      rw [htoken, ← Decimal.ofInt_natCast, Decimal.readInt32?_ofInt fits]
    obtain ⟨m', events, taken, hpc, hcode', running, gap⟩ := takes.jumps issues hslot number
    have hindex : m'.pc.toInt = (statements before).length := by
      rw [hpc, Decimal.toInt_ofInt fits]
    exact ⟨m', events, taken, hindex,
      resumes_of_toInt_pc encoded split (hcode'.trans hcode) running gap hindex⟩

/-- Two labels in one place, a call back to one of them and a branch to the end. -/
def crossingSource : String :=
  "near: here: li $t1 1\nbeq $t1 $t1 end\njal here\nend:"

def crossingCode : List Instruction :=
  [.ofArgs .li ["$t1", "1"] 0, .ofArgs .beq ["$t1", "$t1", "3"] 0, .ofArgs .jal ["0"] 0]

/-- The branch to the end is taken and leads to the place behind the last statement. -/
theorem resolved_labels_lead_end :
    ∃ (lines : List Line) (m : Machine) (i : Instruction),
      readListing crossingSource = .ok lines ∧ resolve lines = .ok crossingCode ∧
      (statements lines).length < 2 ^ 31 ∧ crossingCode[1]? = some i ∧
      m.code = crossingCode.toArray ∧ m.Issues i ∧ Takes m.registers i ∧
      ∃ before after, Defines lines "end" before after ∧
        i.arg 2 = Decimal.ofNat (statements before).length ∧
        ∃ m' events, m.step .off = some (m', events) ∧
          m'.pc.toInt = (statements before).length ∧ Resumes .off lines m' (statements after) := by
  have hread : ((readListing crossingSource).toOption.map fun lines =>
      ((resolve lines).toOption, (statements lines).length,
        (statements lines)[1]?.map fun s => s.operands.map (·.text))) =
      some (some crossingCode, 3,
        some [.register "$t1", .register "$t1", .name "end"]) := by decide +kernel
  obtain ⟨lines, hlines, hstate⟩ := Option.map_eq_some_iff.mp hread
  simp only [Prod.mk.injEq, toOption_eq_some] at hlines hstate
  obtain ⟨resolved, hlength, hsecond⟩ := hstate
  obtain ⟨s, hs, htexts⟩ := Option.map_eq_some_iff.mp hsecond
  have hthird : (s.operands.map (·.text))[2]? = some (.name "end") := by rw [htexts]; rfl
  rw [List.getElem?_map] at hthird
  obtain ⟨operand, hoperand, htext⟩ := Option.map_eq_some_iff.mp hthird
  let i : Instruction := .ofArgs .beq ["$t1", "$t1", "3"] 0
  have hafter : ((Machine.load 4 crossingCode.toArray).after? .off 1).map (fun m =>
      (m.code, m.isRunning, m.checkGap.toOption, m.fetch?)) =
      some (crossingCode.toArray, true, some (), some i) := by decide +kernel
  obtain ⟨m, -, hstate⟩ := Option.map_eq_some_iff.mp hafter
  simp only [Prod.mk.injEq, toOption_eq_some] at hstate
  obtain ⟨hcode, running, gap, fetched⟩ := hstate
  have issues : m.Issues i := ⟨running, gap, fetched⟩
  have takes : Takes m.registers i := .equal rfl (r := .t1) (s := .t1) (.inl rfl) (.inl rfl) rfl
  obtain ⟨-, hencoded⟩ := resolved_labels_lead resolved
  obtain ⟨j, hj, -, hlabels⟩ := hencoded hs
  obtain rfl : i = j := Option.some.inj hj
  have hshape : (shape i.op)[(2 : Fin 3).val]? = some .target := rfl
  obtain ⟨before, after, defines, hargument, hleads⟩ := hlabels hshape hoperand htext
  have hbound : (statements lines).length < 2 ^ 31 := by omega
  exact ⟨lines, m, i, hlines, resolved, hbound, rfl, hcode, issues, takes, before, after, defines,
    hargument, hleads hbound hcode issues takes⟩

end RegisterMachine
