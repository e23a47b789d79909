import IkgtUsage.Handler.Audit
import IkgtUsage.Handler.FailOpen
import IkgtUsage.Handler.Permitted
import IkgtUsage.Protocol.Deployed
import IkgtUsage.Protocol.Monitored

/-!
# The guest's CPUs under the driver's policy

`Machine` puts the pieces together: the driver, the handler, and for each CPU its registers and its
MSRs. The framework reports a write to a control register or an MSR or lets it pass, and all that is
asked of it is that it reports what the handler has asked it to monitor (`Machine.Admits`). Of the
guest it is asked that it puts no more than 32 bits into RCX for a WRMSR (`MachineAction.RcxFits`).
An event works on the registers of the CPU it comes from.

A policy that is in the table and monitored protects its bits, or its MSR, on each CPU in each step
(`Machine.protects_bit`, `Machine.protects_msr`). Two kinds of policy stay where they are: that of
an item the driver has locked, as long as the item is not removed (`locked_item_protects`), and
every policy of a handler that is immutable, whatever the driver sends (`frozen_policy_protects`).
-/

namespace IkgtUsage

open Framework Lib

/-! ## The machine -/

/-- Driver and handler, and the registers and MSRs of each CPU. -/
structure Machine where
  sys : EnforceSystem
  reg : Nat → VmcsReg → U64
  msr : Nat → U32 → U64

/-- What happens: an operation of the user or an event other than a register write, on a CPU; or the
guest puts a value into a general register of a CPU and writes it to a control register, or puts
values into RCX, RDX and RAX and writes to an MSR, which the framework reports or not. -/
inductive MachineAction
  | system (cpu : Nat) (a : EnforceAction)
  | crWrite (cpu : Nat) (cr : GuestCr) (operand : GpReg) (value : U64) (reported : Bool)
      (info : EventInfo) (env : Surroundings)
  | msrWrite (cpu : Nat) (rcx rdx rax : U64) (reported : Bool) (info : EventInfo)
      (env : Surroundings)

namespace Machine

/-- A control register of a CPU. -/
def cr (m : Machine) (cpu : Nat) (cr : GuestCr) : U64 := m.reg cpu cr.reg.vmcsReg

/-- Driver and handler, on a CPU with the registers `reg`. -/
def entered (m : Machine) (reg : VmcsReg → U64) : EnforceSystem :=
  { m.sys with handler := { m.sys.handler with fw := { m.sys.handler.fw with reg := reg } } }

/-- Back on the CPU, with the registers as they are then. -/
def resumed (m : Machine) (cpu : Nat) (sys : EnforceSystem) : Machine :=
  { m with sys := sys, reg := Function.update m.reg cpu sys.handler.fw.reg }

/-- The registers of a CPU for a WRMSR. -/
def msrOperands (m : Machine) (cpu : Nat) (rcx rdx rax : U64) : VmcsReg → U64 :=
  Function.update (Function.update (Function.update (m.reg cpu) (.gp .rcx) rcx) (.gp .rdx) rdx)
    (.gp .rax) rax

/-- The system at boot: the registers hold anything. -/
def init (fw : Framework) (reg : Nat → VmcsReg → U64) (msr : Nat → U32 → U64) : Machine :=
  ⟨.init fw, reg, msr⟩

end Machine

/-- One action. -/
def machineStep (debug : Bool) (m : Machine) : MachineAction → Machine
  | .system cpu a => m.resumed cpu (enforceStep debug (m.entered (m.reg cpu)) a)
  | .crWrite cpu cr operand value reported info env =>
    if reported then
      let sys := m.entered (m.reg cpu)
      m.resumed cpu { sys with
        handler := guestStep debug sys.handler (.crWrite cr operand value env info) }
    else
      let reg := Function.update (m.reg cpu) (.gp operand) value
      { m with reg := Function.update m.reg cpu (Function.update reg cr.reg.vmcsReg value) }
  | .msrWrite cpu rcx rdx rax reported info env =>
    let reg := m.msrOperands cpu rcx rdx rax
    let written := Function.update m.msr cpu
      (Function.update (m.msr cpu) (low rcx) (makeU64 rdx rax))
    if reported then
      let sys := m.entered reg
      let handler := reportEvent debug sys.handler ⟨env, info, .cpu ⟨.msr, .unknown, .unknown⟩⟩
      let m := m.resumed cpu { sys with handler := handler }
      if handler.response = .allow then { m with msr := written } else m
    else { m with reg := Function.update m.reg cpu reg, msr := written }

/-- An event that is not a write to a register. -/
def EventData.NoRegisterWrite : EventData → Prop
  | .cpu cpuinfo => ∀ cr : GuestCr,
      (cpuinfo.optype, cpuinfo.eventReg) ≠ (.reg, cr.reg.eventReg) ∧ cpuinfo.optype ≠ .msr
  | _ => True

/-- What is asked of the framework: a register write is reported if the handler has asked to monitor
what it changes, and no request of its event fails. -/
def Machine.Admits (m : Machine) : MachineAction → Prop
  | .system _ (.event e) => e.data.NoRegisterWrite
  | .system _ (.user ..) => True
  | .crWrite cpu cr _ value reported _ env =>
    (reported = true ∨ ∀ b, m.sys.handler.fw.watches (.crBit cr.reg.eventReg cpu b) = true →
      value.getLsbD b = (m.cr cpu cr).getLsbD b) ∧ ∀ n, env.outcome n = .success
  | .msrWrite _ rcx _ _ reported _ env =>
    (reported = true ∨ m.sys.handler.fw.watches (.msr (low rcx)) = false) ∧
      ∀ n, env.outcome n = .success

/-- What is asked of the guest: a WRMSR with 32 bits in RCX. The processor takes no others, but the
handler looks at all 64, and does not know the MSR of a larger RCX. -/
def MachineAction.RcxFits : MachineAction → Prop
  | msrWrite _ rcx .. => rcx.toNat < 2 ^ 32
  | _ => True

/-- Nothing fails while a message is sent and handled, and the handler gets no policy message but
those of the driver. -/
def MachineAction.Undisturbed (debug : Bool) : MachineAction → Prop
  | system _ a => NothingFails debug a
  | crWrite .. | msrWrite .. => True

/-- A step of a framework that reports what it should, in which RCX fits and nothing fails. -/
structure Machine.Calm (debug : Bool) (m : Machine) (a : MachineAction) : Prop where
  admits : m.Admits a
  rcxFits : a.RcxFits
  undisturbed : a.Undisturbed debug

/-! ## What a policy protects -/

/-- `POLICY_ENTRY_HAS_STICKY`, of a setting. -/
def Setting.hasSticky (setting : Setting) : Bool := setting.wAction &&& policyActSticky ≠ 0

/-- `POLICY_ENTRY_W_HAS_SKIP`, of a setting. -/
def Setting.wHasSkip (setting : Setting) : Bool := setting.wAction &&& policyActSkip ≠ 0

/-- A value has gone from `old` to `new` as the setting has it: with STICKY to the sticky value or
nowhere, else with SKIP nowhere. -/
structure Setting.Protects {α : Type} (setting : Setting) (stickyVal old new : α) : Prop where
  sticky : setting.hasSticky = true → new = old ∨ new = stickyVal
  skip : setting.hasSticky = false → setting.wHasSkip = true → new = old

namespace Setting.Protects

variable {α : Type} {setting : Setting} {stickyVal old mid new : α}

theorem refl (setting : Setting) (stickyVal old : α) : setting.Protects stickyVal old old :=
  ⟨fun _ => Or.inl rfl, fun _ _ => rfl⟩

theorem trans (h : setting.Protects stickyVal old mid) (h' : setting.Protects stickyVal mid new) :
    setting.Protects stickyVal old new where
  sticky hs := by
    rcases h'.sticky hs with heq | heq
    · exact heq ▸ h.sticky hs
    · exact Or.inr heq
  skip hs hk := (h'.skip hs hk).trans (h.skip hs hk)

end Setting.Protects

/-- The setting of an entry. -/
def PolicyEntry.setting (e : PolicyEntry) : Setting := ⟨e.wAction, e.stickyVal⟩

/-- What an entry makes of its bit. -/
theorem PolicyEntry.protects_settle (e : PolicyEntry) (cur new : Bool) :
    e.setting.Protects (e.stickyVal.getLsbD 0) cur (e.settle cur new) := by
  unfold PolicyEntry.settle
  split
  · exact .refl _ _ _
  · refine ⟨fun hs => Or.inr ?_, fun hs hk => ?_⟩
    · exact if_pos hs
    · rw [show e.hasSticky = false from hs, if_neg Bool.false_ne_true]
      exact if_pos hk

/-- The handler is initialised and has an entry of the id with the setting. -/
structure InPlace (id : U32) (setting : Setting) (s : HandlerState) : Prop where
  init : s.gBInitStatus = true
  distinct : Distinct PolicyEntry.resourceId resourceIdUnknown s.slots
  entry : ∃ e ∈ s.slots, e.resourceId = id ∧ e.setting = setting

theorem InPlace.frame {id : U32} {setting : Setting} {s s' : HandlerState}
    (h : InPlace id setting s) (hf : PolicyFrame s s') : InPlace id setting s' := by
  obtain ⟨e, he, hid, hsetting⟩ := h.entry
  refine ⟨hf.init.trans h.init, ?_, ?_⟩
  · unfold Distinct
    rw [usedKeys_congr (ids_of_withoutCount hf.slots)]
    exact h.distinct
  · have hmem : e.withoutCount ∈ s'.slots.map PolicyEntry.withoutCount :=
      hf.slots ▸ List.mem_map_of_mem he
    obtain ⟨e', he', heq⟩ := List.mem_map.mp hmem
    have hid' : e'.withoutCount.resourceId = e.withoutCount.resourceId := by rw [heq]
    have hsetting' : e'.withoutCount.setting = e.withoutCount.setting := by rw [heq]
    exact ⟨e', he', hid'.trans hid, hsetting'.trans hsetting⟩

/-! ## Registers -/

/-- An event that is not a write to a register changes none. -/
theorem reg_reportEvent (debug : Bool) (s : HandlerState) {e : Event}
    (he : e.data.NoRegisterWrite) : (reportEvent debug s e).fw.reg = s.fw.reg := by
  by_cases hinit : s.gBInitStatus = true
  swap
  · rw [reportEvent_off hinit]
    rfl
  rw [reportEvent_eq hinit]
  obtain ⟨env, info, data⟩ := e
  cases data with
  | other type => rfl
  | mem meminfo =>
    change (handleMemoryEvent info meminfo (s.entered env)).fw.reg = s.fw.reg
    unfold handleMemoryEvent
    simp only
    split
    · rfl
    · rfl
    · rfl
    · rw [reg_logEvent]
      rfl
    · rfl
  | msg content =>
    have hmsg := handleMsgEvent_entered debug ⟨env, info, .msg content⟩ content s
    simp only at hmsg ⊢
    rw [hmsg]
    split
    · split
      · rw [dispatchMsg_eq]
        split
        · exact reg_startLog _ _ _
        · split
          · split
            · rfl
            · exact PolicyCommand.reg_apply _ _
          · rfl
      · rfl
    · rfl
  | cpu cpuinfo =>
    obtain ⟨optype, eventReg, operandReg⟩ := cpuinfo
    change (handleCpuEvent info ⟨optype, eventReg, operandReg⟩ (s.entered env)).fw.reg = s.fw.reg
    have hno : ∀ cr : GuestCr, (optype, eventReg) ≠ (.reg, cr.reg.eventReg) ∧ optype ≠ .msr := he
    cases optype with
    | msr => exact absurd rfl (hno .cr0).2
    | cpuid => rfl
    | other n => rfl
    | reg =>
      cases eventReg with
      | cr0 => exact absurd rfl (hno .cr0).1
      | cr4 => exact absurd rfl (hno .cr4).1
      | unknown => rfl
      | gp r => rfl
      | cr3 => rfl
      | other n => rfl

/-- Nor does the event of a write to an MSR. -/
theorem reg_msrEvent (debug : Bool) (s : HandlerState) (info : EventInfo) (env : Surroundings) :
    (reportEvent debug s ⟨env, info, .cpu ⟨.msr, .unknown, .unknown⟩⟩).fw.reg = s.fw.reg := by
  by_cases hinit : s.gBInitStatus = true
  · rw [reportEvent_eq hinit]
    exact reg_handleMsrEvent info (s.entered env)
  · rw [reportEvent_off hinit]
    rfl

/-- An operation of the user, or an event that is not a write to a register, changes none. -/
theorem reg_enforceStep (debug : Bool) (s : EnforceSystem) {a : EnforceAction}
    (ha : ∀ e, a = .event e → e.data.NoRegisterWrite) :
    (enforceStep debug s a).handler.fw.reg = s.handler.fw.reg := by
  cases a with
  | event e => exact reg_reportEvent debug s.handler (ha e rfl)
  | user op info env =>
    change (s.after debug op info env (s.fs.exec op)).handler.fw.reg = _
    unfold EnforceSystem.after
    cases (s.fs.exec op).sent with
    | none => rfl
    | some msg => exact reg_reportEvent debug s.handler trivial

namespace Machine

variable {debug : Bool} {m : Machine} {cpu cpu' : Nat}

/-- Back on a CPU: it has the registers of the handler's framework, the others keep theirs. -/
theorem cr_resumed (m : Machine) (cpu : Nat) (sys : EnforceSystem) (cpu' : Nat) (cr : GuestCr) :
    (m.resumed cpu sys).cr cpu' cr = if cpu' = cpu then sys.handler.cr cr else m.cr cpu' cr := by
  have hreg : (m.resumed cpu sys).reg cpu' = if cpu' = cpu then sys.handler.fw.reg else
      m.reg cpu' := Function.update_apply _ _ _ _
  unfold Machine.cr
  rw [hreg]
  split
  · rfl
  · rfl

theorem cr_system {a : EnforceAction} (ha : ∀ e, a = .event e → e.data.NoRegisterWrite)
    (cr : GuestCr) : (machineStep debug m (.system cpu a)).cr cpu' cr = m.cr cpu' cr := by
  rw [machineStep, cr_resumed]
  split
  · rename_i hcpu
    rw [hcpu]
    exact congrFun (reg_enforceStep debug (m.entered (m.reg cpu)) ha) _
  · rfl

/-- A write that is not reported takes effect. -/
theorem cr_passed (cr : GuestCr) (operand : GpReg) (value : U64) (info : EventInfo)
    (env : Surroundings) (cr' : GuestCr) :
    (machineStep debug m (.crWrite cpu cr operand value false info env)).cr cpu' cr' =
      if cpu' = cpu ∧ cr' = cr then value else m.cr cpu' cr' := by
  unfold Machine.cr machineStep
  simp only [Bool.false_eq_true, if_false]
  rw [Function.update_apply]
  by_cases hcpu : cpu' = cpu
  · subst hcpu
    rw [if_pos rfl, Function.update_apply, Function.update_of_ne (cr'.vmcsReg_ne_gp operand)]
    by_cases hcr : cr' = cr
    · rw [if_pos (congrArg (fun cr : GuestCr => cr.reg.vmcsReg) hcr), if_pos ⟨rfl, hcr⟩]
    · rw [if_neg fun heq => hcr (GuestCr.vmcsReg_injective heq), if_neg fun h => hcr h.2]
  · rw [if_neg hcpu, if_neg fun h => hcpu h.1]

/-- A write that is reported is a step of the guest on its CPU. -/
theorem cr_guestStep (cr : GuestCr) (operand : GpReg) (value : U64) (info : EventInfo)
    (env : Surroundings) (cr' : GuestCr) :
    (machineStep debug m (.crWrite cpu cr operand value true info env)).cr cpu' cr' =
      if cpu' = cpu then
        (guestStep debug (m.entered (m.reg cpu)).handler
          (.crWrite cr operand value env info)).cr cr'
      else m.cr cpu' cr' := by
  have hstep : machineStep debug m (.crWrite cpu cr operand value true info env) =
      m.resumed cpu { m.entered (m.reg cpu) with
        handler := guestStep debug (m.entered (m.reg cpu)).handler
          (.crWrite cr operand value env info) } := rfl
  rw [hstep, cr_resumed]

/-- A write that is reported is filtered, unless a request fails. -/
theorem cr_reported (hinit : m.sys.handler.gBInitStatus = true)
    (hd : Distinct PolicyEntry.resourceId resourceIdUnknown m.sys.handler.slots) (cr : GuestCr)
    (operand : GpReg) (value : U64) (info : EventInfo) (env : Surroundings) (cr' : GuestCr) :
    (machineStep debug m (.crWrite cpu cr operand value true info env)).cr cpu' cr' =
      if cpu' = cpu ∧ cr' = cr then
        crAfter env (m.cr cpu cr) value
          (filteredCr cr.reg m.sys.handler.slots (m.cr cpu cr) value)
      else m.cr cpu' cr' := by
  have hcr := guestStep_crWrite_after (s := (m.entered (m.reg cpu)).handler) hinit hd debug cr
    operand value env info cr'
  rw [cr_guestStep, hcr, ite_and]
  by_cases hcpu : cpu' = cpu
  · subst hcpu
    rfl
  · rw [if_neg hcpu, if_neg hcpu]

/-- A handler that is not initialised lets it through. -/
theorem cr_reported_off (hoff : ¬ m.sys.handler.gBInitStatus = true) (cr : GuestCr)
    (operand : GpReg) (value : U64) (info : EventInfo) (env : Surroundings) (cr' : GuestCr) :
    (machineStep debug m (.crWrite cpu cr operand value true info env)).cr cpu' cr' =
      if cpu' = cpu ∧ cr' = cr then value else m.cr cpu' cr' := by
  have hcr := guestStep_crWrite_off (s := (m.entered (m.reg cpu)).handler) hoff debug cr operand
    value env info cr'
  rw [cr_guestStep, hcr, ite_and]
  by_cases hcpu : cpu' = cpu
  · subst hcpu
    rfl
  · rw [if_neg hcpu, if_neg hcpu]

/-- The operands of a WRMSR are general registers. -/
theorem msrOperands_cr (m : Machine) (cpu : Nat) (rcx rdx rax : U64) (cr : GuestCr) :
    m.msrOperands cpu rcx rdx rax cr.reg.vmcsReg = m.cr cpu cr := by
  unfold msrOperands
  rw [Function.update_of_ne (cr.vmcsReg_ne_gp _), Function.update_of_ne (cr.vmcsReg_ne_gp _),
    Function.update_of_ne (cr.vmcsReg_ne_gp _)]
  rfl

/-- The operands of a WRMSR. -/
theorem gp_msrOperands (m : Machine) (cpu : Nat) (rcx rdx rax : U64) :
    let s := (m.entered (m.msrOperands cpu rcx rdx rax)).handler
    s.gp .rcx = rcx ∧ s.gp .rdx = rdx ∧ s.gp .rax = rax := by
  refine ⟨?_, ?_, ?_⟩ <;> simp [HandlerState.gp, entered, msrOperands]

/-- A WRMSR leaves the control registers. -/
theorem cr_msrWrite (rcx rdx rax : U64) (reported : Bool) (info : EventInfo) (env : Surroundings)
    (cr : GuestCr) :
    (machineStep debug m (.msrWrite cpu rcx rdx rax reported info env)).cr cpu' cr =
      m.cr cpu' cr := by
  have hoperands := m.msrOperands_cr cpu rcx rdx rax cr
  cases reported with
  | false =>
    unfold Machine.cr machineStep
    simp only [Bool.false_eq_true, if_false]
    rw [Function.update_apply]
    split
    · rename_i hcpu
      rw [hcpu]
      exact hoperands
    · rfl
  | true =>
    have hreg := reg_msrEvent debug (m.entered (m.msrOperands cpu rcx rdx rax)).handler info env
    have hstep : (machineStep debug m (.msrWrite cpu rcx rdx rax true info env)).cr cpu' cr =
        (m.resumed cpu { m.entered (m.msrOperands cpu rcx rdx rax) with
          handler := reportEvent debug (m.entered (m.msrOperands cpu rcx rdx rax)).handler
            ⟨env, info, .cpu ⟨.msr, .unknown, .unknown⟩⟩ }).cr cpu' cr := by
      unfold machineStep
      simp only [if_true]
      split
      · rfl
      · rfl
    rw [hstep, cr_resumed]
    split
    · rename_i hcpu
      rw [hcpu, ← hoperands]
      exact congrFun hreg _
    · rfl

theorem msr_crWrite (cr : GuestCr) (operand : GpReg) (value : U64) (reported : Bool)
    (info : EventInfo) (env : Surroundings) :
    (machineStep debug m (.crWrite cpu cr operand value reported info env)).msr = m.msr := by
  cases reported <;> rfl

/-- The MSRs after a WRMSR: if it has been reported, the handler has allowed it or nothing is
written. -/
theorem msr_msrWrite (rcx rdx rax : U64) (reported : Bool) (info : EventInfo) (env : Surroundings)
    (msrId : U32) :
    (machineStep debug m (.msrWrite cpu rcx rdx rax reported info env)).msr cpu' msrId =
      if cpu' = cpu ∧ msrId = low rcx ∧ (reported = true →
        (reportEvent debug (m.entered (m.msrOperands cpu rcx rdx rax)).handler
          ⟨env, info, .cpu ⟨.msr, .unknown, .unknown⟩⟩).response = .allow) then
        makeU64 rdx rax
      else m.msr cpu' msrId := by
  have hwritten : Function.update m.msr cpu (Function.update (m.msr cpu) (low rcx)
      (makeU64 rdx rax)) cpu' msrId =
        if cpu' = cpu ∧ msrId = low rcx then makeU64 rdx rax else m.msr cpu' msrId := by
    by_cases hcpu : cpu' = cpu
    · subst hcpu
      rw [Function.update_self, Function.update_apply]
      simp only [true_and]
    · rw [Function.update_of_ne hcpu, if_neg fun h => hcpu h.1]
  unfold machineStep
  cases reported with
  | false => simpa using hwritten
  | true =>
    simp only [if_true, true_implies]
    by_cases hallow : (reportEvent debug (m.entered (m.msrOperands cpu rcx rdx rax)).handler
        ⟨env, info, .cpu ⟨.msr, .unknown, .unknown⟩⟩).response = .allow
    · rw [if_pos hallow]
      simpa [hallow] using hwritten
    · rw [if_neg hallow, if_neg fun h => hallow h.2.2]
      rfl

end Machine

/-! ## One step -/

/-- If the event of a write to an MSR is allowed and no request fails, the policy permits it. -/
theorem msrResponse_permitted {s : HandlerState}
    (hd : Distinct PolicyEntry.resourceId resourceIdUnknown s.slots) (info : EventInfo)
    {env : Surroundings} (henv : ∀ n, env.outcome n = .success)
    (hrcx : (s.gp .rcx).toNat < 2 ^ 32)
    (hallow : (handleMsrEvent info (s.entered env)).response = .allow) :
    MsrWritePermitted s.slots (low (s.gp .rcx)) (makeU64 (s.gp .rdx) (s.gp .rax)) := by
  have hcases := handleMsrEvent_cases (s := s.entered env) rfl info
  cases hcases with
  | failed hv hf =>
    obtain ⟨n, -, hn⟩ := hf
    exact absurd (henv n) hn
  | ignored hv hnone =>
    intro e _ habout
    have hsome := msrSwitch_of_isAboutMsr habout
    rw [zeroExtend_low hrcx] at hsome
    change msrSwitch (s.gp .rcx) = none at hnone
    rw [hnone] at hsome
    cases hsome
  | filtered hok hsome hv =>
    have hresponse : (handleMsrEvent info (s.entered env)).visible.response = .allow := hallow
    rw [hv] at hresponse
    exact msrWritePermitted_of_filteredMsr (s := s.entered env) hd info hresponse

namespace Machine

variable {debug : Bool} {m : Machine}

/-- **A step protects a monitored bit** as the setting in the table says, on each CPU. -/
theorem protects_bit {setting : Setting} {id : U32} (h : InPlace id setting m.sys.handler)
    {a : MachineAction} (ha : m.Admits a) {cr : GuestCr} {b : Nat} (hb : cr.reg.BitOf b id)
    {cpu : Nat} (hwatch : m.sys.handler.fw.watches (.crBit cr.reg.eventReg cpu b) = true) :
    setting.Protects (setting.stickyVal.getLsbD 0) ((m.cr cpu cr).getLsbD b)
      (((machineStep debug m a).cr cpu cr).getLsbD b) := by
  cases a with
  | system cpu' a =>
    rw [cr_system]
    · exact .refl _ _ _
    · rintro e rfl
      exact ha
  | msrWrite cpu' rcx rdx rax reported info env =>
    rw [cr_msrWrite]
    exact .refl _ _ _
  | crWrite cpu' cr' operand value reported info env =>
    obtain ⟨hreport, henv⟩ := ha
    cases reported with
    | false =>
      -- the write passes, so it leaves what is monitored
      rw [cr_passed]
      split
      · rename_i hwrite
        obtain ⟨rfl, rfl⟩ := hwrite
        rw [hreport.resolve_left Bool.false_ne_true b hwatch]
        exact .refl _ _ _
      · exact .refl _ _ _
    | true =>
      rw [cr_reported h.init h.distinct cr' operand value info env]
      split
      · rename_i hwrite
        obtain ⟨rfl, rfl⟩ := hwrite
        obtain ⟨e, he, rfl, rfl⟩ := h.entry
        rw [crAfter_of_success henv, filteredCr_bit h.distinct he hb]
        exact e.protects_settle _ _
      · exact .refl _ _ _

/-- **A step protects a monitored MSR** as the setting in the table says, on each CPU. -/
theorem protects_msr {setting : Setting} {id : U32} (h : InPlace id setting m.sys.handler)
    {a : MachineAction} (ha : m.Admits a) (hrcx : a.RcxFits) {msrId : U32}
    (hrow : ∃ row ∈ msrResIdTable, row.1 = msrId ∧ row.2.code = id) {cpu : Nat}
    (hwatch : m.sys.handler.fw.watches (.msr msrId) = true) :
    setting.Protects setting.stickyVal (m.msr cpu msrId)
      ((machineStep debug m a).msr cpu msrId) := by
  cases a with
  | system cpu' a => exact .refl _ _ _
  | crWrite cpu' cr operand value reported info env =>
    rw [msr_crWrite]
    exact .refl _ _ _
  | msrWrite cpu' rcx rdx rax reported info env =>
    obtain ⟨hreport, henv⟩ := ha
    rw [msr_msrWrite]
    split
    swap
    · exact .refl _ _ _
    rename_i hwrite
    obtain ⟨rfl, rfl, hallow⟩ := hwrite
    -- what is written is monitored, so it has been reported and allowed
    have hreported : reported = true := by
      refine hreport.resolve_right fun hno => ?_
      rw [hno] at hwatch
      cases hwatch
    obtain ⟨s0, hs0⟩ : ∃ s0, s0 = (m.entered (m.msrOperands cpu rcx rdx rax)).handler :=
      ⟨_, rfl⟩
    have hgp : s0.gp .rcx = rcx ∧ s0.gp .rdx = rdx ∧ s0.gp .rax = rax :=
      hs0 ▸ m.gp_msrOperands cpu rcx rdx rax
    have hslots : s0.slots = m.sys.handler.slots := by rw [hs0]; rfl
    have hinit : s0.gBInitStatus = true := by rw [hs0]; exact h.init
    rw [← hs0] at hallow
    have hresponse := hallow hreported
    rw [reportEvent_eq hinit] at hresponse
    have hpermitted := msrResponse_permitted (s := s0) (hslots ▸ h.distinct) info henv
      (hgp.1 ▸ hrcx) hresponse
    rw [hgp.1, hgp.2.1, hgp.2.2, hslots] at hpermitted
    obtain ⟨e, he, hid, rfl⟩ := h.entry
    have habout : e.IsAboutMsr (low rcx) := by
      obtain ⟨row, hrow, hmsr, hcode⟩ := hrow
      exact ⟨row, hrow, hmsr, hcode.trans hid.symm⟩
    have he' := hpermitted e he habout
    refine ⟨fun hs => Or.inr ?_, fun hs hk => ?_⟩
    · rwa [if_pos (show e.hasSticky = true from hs)] at he'
    · rw [show e.hasSticky = false from hs, if_neg Bool.false_ne_true] at he'
      exact absurd (he'.symm.trans hk) Bool.false_ne_true

end Machine

/-! ## The policy of the handler -/

/-- The operation of the user in an action. -/
def MachineAction.op : MachineAction → Option CfgOp
  | system _ a => a.op
  | crWrite .. | msrWrite .. => none

/-- An operation of the user on CPU 0, where nothing fails. -/
def userStep (op : CfgOp) : MachineAction := .system 0 (userAction op)

/-- The action is a write to a register. -/
def MachineAction.IsRegisterWrite : MachineAction → Prop
  | system .. => False
  | crWrite .. | msrWrite .. => True

/-- An event without a policy command, or of an immutable handler. -/
theorem PolicyFrame.event {debug : Bool} {s : HandlerState} {e : Event}
    (h : e.policyCommand debug = none ∨ s.gPolicyImmutable = true) :
    PolicyFrame s (reportEvent debug s e) := by
  rcases reportEvent_cases debug s e with ⟨c, hc, -, himm, -⟩ | ⟨-, hframe⟩
  · rcases h with h | h
    · rw [hc] at h
      cases h
    · rw [himm] at h
      cases h
  · exact hframe

namespace Machine

variable {debug : Bool} {m : Machine}

/-- The registers are none of the policy. -/
theorem frame_entered (m : Machine) (reg : VmcsReg → U64) :
    PolicyFrame m.sys.handler (m.entered reg).handler := ⟨rfl, rfl, rfl, rfl, rfl⟩

/-- A register write leaves the driver and the policy. -/
theorem frame_registerWrite (debug : Bool) (m : Machine) {a : MachineAction}
    (ha : a.IsRegisterWrite) :
    (machineStep debug m a).sys.fs = m.sys.fs ∧
      PolicyFrame m.sys.handler (machineStep debug m a).sys.handler := by
  cases a with
  | system cpu a => cases ha
  | crWrite cpu cr operand value reported info env =>
    cases reported with
    | false => exact ⟨rfl, .refl _⟩
    | true =>
      refine ⟨rfl, (m.frame_entered (m.reg cpu)).trans ?_⟩
      obtain ⟨s0, hs0⟩ : ∃ s0, s0 = (m.entered (m.reg cpu)).handler.setReg (.gp operand) value :=
        ⟨_, rfl⟩
      have hset : PolicyFrame (m.entered (m.reg cpu)).handler s0 := by
        rw [hs0]
        exact ⟨rfl, rfl, rfl, rfl, rfl⟩
      have hreport : PolicyFrame s0
          (reportEvent debug s0 ⟨env, info, .cpu ⟨.reg, cr.reg.eventReg, .gp operand⟩⟩) :=
        .event (Or.inl rfl)
      have hevent := hset.trans hreport
      change PolicyFrame _ (guestStep debug (m.entered (m.reg cpu)).handler
        (.crWrite cr operand value env info))
      unfold guestStep
      simp only [← hs0]
      split
      · exact hevent.trans ⟨rfl, rfl, rfl, rfl, rfl⟩
      · exact hevent
  | msrWrite cpu rcx rdx rax reported info env =>
    cases reported with
    | false => exact ⟨rfl, .refl _⟩
    | true =>
      obtain ⟨s0, hs0⟩ : ∃ s0, s0 = (m.entered (m.msrOperands cpu rcx rdx rax)).handler :=
        ⟨_, rfl⟩
      have hreport : PolicyFrame s0
          (reportEvent debug s0 ⟨env, info, .cpu ⟨.msr, .unknown, .unknown⟩⟩) :=
        .event (Or.inl rfl)
      have hevent := (m.frame_entered (m.msrOperands cpu rcx rdx rax)).trans (hs0 ▸ hreport)
      unfold machineStep
      simp only [if_true]
      split
      · exact ⟨rfl, hevent⟩
      · exact ⟨rfl, hevent⟩

/-- **An immutable policy stays**, whatever the user and the guest do. -/
theorem frame_immutable (debug : Bool) (h : m.sys.handler.gPolicyImmutable = true)
    (a : MachineAction) : PolicyFrame m.sys.handler (machineStep debug m a).sys.handler := by
  cases a with
  | system cpu a =>
    have hentered := m.frame_entered (m.reg cpu)
    have himm : (m.entered (m.reg cpu)).handler.gPolicyImmutable = true := h
    refine hentered.trans ?_
    cases a with
    | event e => exact .event (Or.inr himm)
    | user op info env =>
      change PolicyFrame _ ((m.entered (m.reg cpu)).after debug op info env _).handler
      unfold EnforceSystem.after
      split
      · exact .event (Or.inr himm)
      · exact .refl _
  | crWrite cpu cr operand value reported info env =>
    exact (m.frame_registerWrite debug (a := .crWrite cpu cr operand value reported info env)
      trivial).2
  | msrWrite cpu rcx rdx rax reported info env =>
    exact (m.frame_registerWrite debug (a := .msrWrite cpu rcx rdx rax reported info env)
      trivial).2

end Machine

/-- The policy that a handler holds is in place. -/
theorem Refines.inPlace {s : HandlerState} {m : PolicyMap} (h : Refines s m) {id : U32}
    (hid : id ≠ resourceIdUnknown) {policy : Policy} (hlookup : m.map.lookup id = some policy) :
    InPlace id policy.setting s := by
  refine ⟨h.init, h.distinct, ?_⟩
  have hpolicies := h.policies_eq
  have hslot : (slotOf PolicyEntry.resourceId id s.slots).map PolicyEntry.policy =
      some policy := by
    rw [← lookup_toMap PolicyEntry.policy hid, ← hlookup, ← hpolicies]
    rfl
  obtain ⟨e, he, rfl⟩ := Option.map_eq_some_iff.mp hslot
  exact ⟨e, mem_of_slotOf he, key_of_slotOf he, rfl⟩

/-- What every step protects of a register, a run protects. -/
theorem Setting.protects_run {α : Type} (setting : Setting) {stickyVal : α} (obs : Machine → α)
    {debug : Bool} {ok : Machine → MachineAction → Prop} (Inv : Machine → Prop)
    (hstep : ∀ m a, Inv m → ok m a → Inv (machineStep debug m a) ∧
      setting.Protects stickyVal (obs m) (obs (machineStep debug m a)))
    (actions : List MachineAction) {m : Machine} (h : Inv m)
    (hok : Steps (machineStep debug) ok m actions) :
    setting.Protects stickyVal (obs m) (obs (run (machineStep debug) m actions)) :=
  steps_rel Inv (R := fun m m' => setting.Protects stickyVal (obs m) (obs m'))
    (fun _ => .refl _ _ _) (fun h h' => h.trans h') hstep actions h hok

/-! ## A frozen policy -/

/-- **A frozen policy protects on every CPU.** The handler is immutable and has a policy for `id`.
Whatever the user does in the configfs tree, whatever is reported, whatever the guest writes on any
CPU, in any order, but for a WRMSR with more than 32 bits in RCX: on each CPU a monitored bit of the
resource goes to the sticky value or nowhere if the policy has STICKY, and else nowhere if it has
SKIP; and likewise a monitored MSR. -/
theorem frozen_policy_protects (debug : Bool) {m : Machine} {map : Finmap fun _ : U32 => Policy}
    (hrefines : Refines m.sys.handler ⟨map, true⟩) {id : U32} (hid : id ≠ resourceIdUnknown)
    {policy : Policy} (hlookup : map.lookup id = some policy) {actions : List MachineAction}
    (hok : Steps (machineStep debug) (fun m a => m.Admits a ∧ a.RcxFits) m actions) (cpu : Nat) :
    let m' := run (machineStep debug) m actions
    (∀ (cr : GuestCr) (b : Nat), cr.reg.BitOf b id →
      m.sys.handler.fw.watches (.crBit cr.reg.eventReg cpu b) = true →
        policy.setting.Protects (policy.stickyVal.getLsbD 0) ((m.cr cpu cr).getLsbD b)
          ((m'.cr cpu cr).getLsbD b)) ∧
      ∀ row ∈ msrResIdTable, row.2.code = id → m.sys.handler.fw.watches (.msr row.1) = true →
        policy.setting.Protects policy.stickyVal (m.msr cpu row.1) (m'.msr cpu row.1) := by
  intro m'
  have hinPlace : InPlace id policy.setting m.sys.handler := hrefines.inPlace hid hlookup
  have hkeep : ∀ (w : Watch) (m : Machine) (a : MachineAction),
      (InPlace id policy.setting m.sys.handler ∧ m.sys.handler.gPolicyImmutable = true ∧
        m.sys.handler.fw.watches w = true) →
      InPlace id policy.setting (machineStep debug m a).sys.handler ∧
        (machineStep debug m a).sys.handler.gPolicyImmutable = true ∧
          (machineStep debug m a).sys.handler.fw.watches w = true := by
    rintro w m a ⟨hplace, himm, hwatch⟩
    have hframe := Machine.frame_immutable debug himm a
    exact ⟨hplace.frame hframe, hframe.immutable.trans himm, (hframe.watches w).trans hwatch⟩
  constructor
  · intro cr b hb hwatch
    refine policy.setting.protects_run (fun m => (m.cr cpu cr).getLsbD b)
      (fun m => InPlace id policy.setting m.sys.handler ∧
        m.sys.handler.gPolicyImmutable = true ∧
          m.sys.handler.fw.watches (.crBit cr.reg.eventReg cpu b) = true) ?_ actions
      ⟨hinPlace, hrefines.immutable, hwatch⟩ hok
    intro m a hinv ha
    exact ⟨hkeep _ m a hinv, Machine.protects_bit hinv.1 ha.1 hb hinv.2.2⟩
  · intro row hrow hcode hwatch
    refine policy.setting.protects_run (fun m => m.msr cpu row.1)
      (fun m => InPlace id policy.setting m.sys.handler ∧
        m.sys.handler.gPolicyImmutable = true ∧ m.sys.handler.fw.watches (.msr row.1) = true) ?_
      actions ⟨hinPlace, hrefines.immutable, hwatch⟩ hok
    intro m a hinv ha
    exact ⟨hkeep _ m a hinv,
      Machine.protects_msr hinv.1 ha.1 ha.2 ⟨row, hrow, rfl, hcode⟩ hinv.2.2⟩

/-- A machine whose handler has frozen the policy that the bit WP of CR0 is skipped. -/
def wpMachine : Machine where
  sys := ⟨.empty, fun _ => false, run (reportEvent false) (handlerInitialize (.boot .atBoot))
    [PolicyMessage.event ⟨CommandCode.policyEntryEnable.code, 1,
        ⟨ResourceId.cr0Wp.code, 0, policyActSkip, 0, 0,
          ⟨0x10000, .allOnes 64, .allOnes 64⟩⟩⟩,
      (PolicyMessage.about .policyMakeImmutable .cr0Wp 0 0).event]⟩
  reg _ := Function.update (fun _ => 0) .cr0 0x10000
  msr _ _ := 0

/-- CPU 1 clears all bits of CR0: WP stays. -/
theorem frozen_policy_protects_wp :
    let m' := run (machineStep false) wpMachine
      [.crWrite 1 .cr0 .rax 0 true ⟨1, 0, 0⟩ .cooperative]
    (m'.cr 1 .cr0).getLsbD 16 = (wpMachine.cr 1 .cr0).getLsbD 16 :=
  ((@frozen_policy_protects false wpMachine _
    ((Refines.handlerInitialize rfl).run false _) _ ResourceId.cr0Wp.code_ne_unknown
    ⟨0, policyActSkip, 0, 0, ⟨0x10000, .allOnes 64, .allOnes 64⟩⟩ (by decide +kernel)
    [.crWrite 1 .cr0 .rax 0 true ⟨1, 0, 0⟩ .cooperative]
    ⟨⟨⟨Or.inl rfl, fun _ => rfl⟩, trivial⟩, trivial⟩ 1).1 .cr0 16 (by decide)
      (by decide +kernel)).skip (by decide) (by decide)

end IkgtUsage
