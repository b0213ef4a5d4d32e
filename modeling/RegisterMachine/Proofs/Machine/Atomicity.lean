import RegisterMachine.Proofs.Machine.Calls
import RegisterMachine.Proofs.Machine.Width

/-!
# Faults leave no trace

An instruction that faults has written nothing, and neither has a machine that stops before it
fetches one. There is one exception: a push lowers the stack top before it stores, so a push to an
address outside the arena leaves the stack top lowered. What a fault does move is the place of the
machine: it stands behind the instruction that faulted.
-/

set_option autoImplicit false

namespace RegisterMachine

open Checks Machine

/-- The instruction pushes a register below the stack top `sp`, where the arena has no cell. -/
structure Machine.PushesOutside (m : Machine) (i : Instruction) (sp : Int64) : Prop where
  op : i.op = .push
  source : ∃ r, Register.ofToken? i.arg1 = some r
  top : m.registers.sp = some sp
  outside : ¬ m.arena.contains (sp - 1)

/-- What a step that faults leaves as it was, and what it moves. -/
structure FaultFrame (m m' : Machine) : Prop where
  code : m'.code = m.code
  arena : m'.arena = m.arena
  heap : m'.heap = m.heap
  live : m'.live = m.live
  registers : (∀ i sp, m.Issues i → ¬ m.PushesOutside i sp) → m'.registers = m.registers
  /-- A push past the arena has lowered the stack top by one and changed no other register. -/
  lowered : ∀ i sp, m.Issues i → m.PushesOutside i sp →
    m'.registers = m.registers.set .sp (some (sp - 1)) ∧ (sp - 1).toInt = sp.toInt - 1
  /-- Before the fetch the machine stays in its place. -/
  unfetched : (∀ i, ¬ m.Issues i) → m'.pc = m.pc ∧ m'.steps = m.steps
  /-- Behind the fetch it has gone on by one. No program has more instructions than indices. -/
  fetched : ∀ i, m.Issues i → m'.pc = m.pc + 1 ∧ m'.steps = m.steps + 1 ∧
    (m.code.size < 2 ^ 63 → m'.pc.toInt = m.pc.toInt + 1)

namespace Machine

variable {m : Machine} {i : Instruction}

/-- The only obstacle that leaves something behind is that of a push past the arena. -/
theorem pushesOutside_of_overrun {a : Int64} {e : ArenaError}
    (h : m.plan i = .error (.overrun a e)) : ∃ sp, m.PushesOutside i sp ∧ a = sp - 1 := by
  cases Refuses.of_plan h with
  | @overrun sp op top outside =>
    refine ⟨sp, ⟨op, ?_, top, outside⟩, rfl⟩
    simp only [plan, op, planPush] at h
    rcases bind_eq_error.mp h with h | ⟨r, hr, -⟩
    · obtain ⟨cause, -, he⟩ := Refuses.demand_eq_error.mp h
      cases he
    · have source := operandRegister_eq_ok.mp (demand_eq_ok.mp hr)
      exact ⟨r, source⟩

theorem PushesOutside.plan_eq {sp : Int64} (h : m.PushesOutside i sp) :
    m.plan i = .error (.overrun (sp - 1) (m.arena.outside (sp - 1))) := by
  obtain ⟨r, source⟩ := h.source
  rw [planPush_eq h.op source h.top, if_neg h.outside]

theorem Issues.unique {j : Instruction} (hi : m.Issues i) (hj : m.Issues j) : i = j :=
  Option.some.inj (hi.fetched.symm.trans hj.fetched)

/-- The stack top of a machine that has passed its check is not the lowest number. -/
theorem Issues.toInt_lowered {sp : Int64} (h : m.Issues i) (top : m.registers.sp = some sp) :
    (sp - 1).toInt = sp.toInt - 1 := by
  obtain ⟨hp, sp', -, top', hlt⟩ := checkGap_eq_ok.mp h.gap
  obtain rfl := Option.some.inj (top.symm.trans top')
  have hlow := (max hp m.heap + 1).le_toInt
  exact Word.toInt_sub_one (by omega)

theorem Issues.toInt_advanced (h : m.Issues i) (hsize : m.code.size < 2 ^ 63) :
    (m.pc + 1).toInt = m.pc.toInt + 1 := by
  have hlt := (toInt_pc_of_fetch? h.fetched).2
  exact Word.toInt_add_one (by omega)

end Machine

/-! ### Steps -/

section Steps

variable {mode : TraceMode} {m m' : Machine} {events : List Event} {f : Fault}

/-- A machine that has not fetched an instruction has changed nothing but its status. -/
theorem faultFrame_unfetched (idle : ∀ i, ¬ m.Issues i) (code : m'.code = m.code)
    (arena : m'.arena = m.arena) (heap : m'.heap = m.heap) (live : m'.live = m.live)
    (registers : m'.registers = m.registers) (pc : m'.pc = m.pc) (steps : m'.steps = m.steps) :
    FaultFrame m m' where
  code := code
  arena := arena
  heap := heap
  live := live
  registers _ := registers
  lowered i _ issued := absurd issued (idle i)
  unfetched _ := ⟨pc, steps⟩
  fetched i issued := absurd issued (idle i)

/-- **A step that faults leaves the program, the arena and the heap as they were**, and the
registers too unless it is a push past the arena. -/
theorem faultFrame_step (h : Stepped mode m m' events) (hf : m'.status = .faulted f) :
    FaultFrame m m' := by
  cases h with
  | idle stopped =>
    have hidle : ∀ i, ¬ m.Issues i := fun i issued => by simp [issued.running] at stopped
    exact faultFrame_unfetched hidle rfl rfl rfl rfl rfl rfl rfl
  | refused _ gap next =>
    have hidle : ∀ i, ¬ m.Issues i := fun i issued => by simp [issued.gap] at gap
    subst next
    exact faultFrame_unfetched hidle rfl rfl rfl rfl rfl rfl rfl
  | lost _ _ fetched next =>
    have hidle : ∀ i, ¬ m.Issues i := fun i issued => by simp [issued.fetched] at fetched
    subst next
    exact faultFrame_unfetched hidle rfl rfl rfl rfl rfl rfl rfl
  | @faulted i cause _ running gap fetched refusal next =>
    have issued : m.Issues i := ⟨running, gap, fetched⟩
    subst next
    refine ⟨rfl, rfl, rfl, rfl, fun _ => rfl, ?_, ?_, ?_⟩
    · intro j sp hj outside
      obtain rfl := issued.unique hj
      rw [outside.plan_eq] at refusal
      cases refusal
    · exact fun hidle => absurd issued (hidle i)
    · exact fun _ _ => ⟨rfl, rfl, issued.toInt_advanced⟩
  | @overrun i a error _ running gap fetched refusal next =>
    have issued : m.Issues i := ⟨running, gap, fetched⟩
    obtain ⟨sp, outside, rfl⟩ := pushesOutside_of_overrun refusal
    subst next
    refine ⟨rfl, rfl, rfl, rfl, ?_, ?_, ?_, ?_⟩
    · exact fun hnone => absurd outside (hnone i sp issued)
    · intro j top _ other
      obtain rfl := Option.some.inj (outside.top.symm.trans other.top)
      exact ⟨rfl, issued.toInt_lowered outside.top⟩
    · exact fun hidle => absurd issued (hidle i)
    · exact fun _ _ => ⟨rfl, rfl, issued.toInt_advanced⟩
  | executed running _ _ _ next =>
    subst next
    exact absurd hf (executed_status_ne running _ _ f)

theorem printed_notMem_opening {text : String} : Event.printed text ∉ m.opening := by
  unfold opening
  split <;> simp

theorem printed_notMem_closing {text : String} : Event.printed text ∉ m.closing mode := by
  unfold closing
  split <;> simp

theorem printed_notMem_aftermath {i : Instruction} {text : String} :
    Event.printed text ∉ m.aftermath mode i := by
  unfold aftermath progress
  split
  · exact printed_notMem_closing
  · split <;> simp

/-- A step that faults prints nothing. -/
theorem printed_notMem_of_faulted (h : Stepped mode m m' events) (hf : m'.status = .faulted f)
    (text : String) : Event.printed text ∉ events := by
  cases h with
  | idle => simp
  | refused => simp [printed_notMem_opening, printed_notMem_closing]
  | lost => simp [printed_notMem_opening, printed_notMem_closing]
  | faulted => simp [printed_notMem_opening, printed_notMem_closing]
  | overrun => simp [printed_notMem_opening, printed_notMem_closing]
  | executed running _ _ _ next =>
    subst next
    exact absurd hf (executed_status_ne running _ _ f)

end Steps

/-! ### Sessions -/

namespace Session

theorem output_observe_of_ne {s : Session} {e : Event} (h : ∀ text, e ≠ .printed text) :
    (s.observe e).output = s.output := by
  cases e with
  | printed text => exact absurd rfl (h text)
  | _ =>
    simp only [observe]
    split <;> rfl

theorem output_foldl_observe_of_notMem {events : List Event} {s : Session}
    (h : ∀ text, Event.printed text ∉ events) : (events.foldl observe s).output = s.output := by
  induction events generalizing s with
  | nil => rfl
  | cons e rest ih =>
    have hrest : ∀ text, Event.printed text ∉ rest := fun text hmem =>
      h text (List.mem_cons_of_mem e hmem)
    have hone : (s.observe e).output = s.output := by
      refine output_observe_of_ne fun text he => h text ?_
      rw [he]
      exact List.mem_cons_self
    rw [List.foldl_cons, ih hrest, hone]

end Session

/-- **A step that faults moves nothing but its place**: registers, cells, heap, program and printed
text are what they were before it, whatever the state and the instruction. Only a push to an address
outside the arena has lowered the stack top. -/
theorem faults_atomic {s s' : Session} {f : Fault} (taken : s.step? = some s')
    (hf : s'.machine.status = .faulted f) :
    FaultFrame s.machine s'.machine ∧ s'.output = s.output := by
  rw [Session.step?_eq] at taken
  obtain ⟨⟨machine, events⟩, hstep, rfl⟩ := Option.map_eq_some_iff.mp taken
  have hmachine := (Session.foldl_observe_frame events { s with machine }).1
  dsimp only at hf ⊢
  rw [hmachine] at hf ⊢
  have way := stepped_of_step hstep
  refine ⟨faultFrame_step way hf, ?_⟩
  rw [Session.output_foldl_observe_of_notMem (printed_notMem_of_faulted way hf)]

/-- Prints a number, moves the stack top far above the arena and pushes there. -/
def pushAbove : Array Instruction :=
  #[.ofArgs .print ["$hp"] 0, .ofArgs .li ["$sp", "100"] 0, .ofArgs .push ["$sp"] 0]

/-- The session in which the push comes next. -/
def pushAboveSession : Session where
  machine :=
    { Machine.load 8 pushAbove with
      registers := (Registers.ofSize 8).set .sp (some 100)
      pc := 2
      steps := 2
      begun := true }
  output := "0\n"

/-- The push leaves the stack top at 99, below which there is no cell to store it in. -/
theorem faults_atomic_push :
    ∃ s' f, pushAboveSession.step? = some s' ∧ s'.machine.status = .faulted f ∧
      pushAboveSession.machine.Issues (.ofArgs .push ["$sp"] 0) ∧
      pushAboveSession.machine.PushesOutside (.ofArgs .push ["$sp"] 0) 100 ∧
      s'.machine.registers = (Registers.ofSize 8).set .sp (some 99) ∧
      (s'.machine.pc = 3 ∧ s'.machine.steps = 3) ∧
      FaultFrame pushAboveSession.machine s'.machine ∧ s'.output = "0\n" := by
  have hstep : ((pushAboveSession.machine.step .off).map fun r =>
      (r.1.status, r.1.pc, r.1.steps)) =
        some (.faulted (.ofCause (.memory { kind := .outOfRange, index := 99, size := 8 }) 2
          (.ofArgs .push ["$sp"] 0)), 3, 3) := by decide +kernel
  obtain ⟨⟨m', events⟩, hm, hstate⟩ := Option.map_eq_some_iff.mp hstep
  obtain ⟨s', taken, rfl⟩ : ∃ s', pushAboveSession.step? = some s' ∧ s'.machine = m' := by
    rw [Session.step?_eq]
    exact ⟨_, congrArg (Option.map _) hm, (Session.foldl_observe_frame events _).1⟩
  obtain ⟨hstatus, hplace⟩ := Prod.mk.inj hstate
  have issued : pushAboveSession.machine.Issues (.ofArgs .push ["$sp"] 0) :=
    ⟨by decide, by decide, by decide⟩
  have outside : pushAboveSession.machine.PushesOutside (.ofArgs .push ["$sp"] 0) 100 :=
    ⟨rfl, ⟨.sp, by decide⟩, rfl, by decide⟩
  have hlowered : pushAboveSession.machine.registers.set .sp (some (100 - 1)) =
      (Registers.ofSize 8).set .sp (some 99) := by decide
  obtain ⟨frame, hout⟩ := faults_atomic taken hstatus
  have htop := (frame.lowered _ _ issued outside).1.trans hlowered
  exact ⟨s', _, taken, hstatus, issued, outside, htop, Prod.mk.inj hplace, frame, hout⟩

end RegisterMachine
