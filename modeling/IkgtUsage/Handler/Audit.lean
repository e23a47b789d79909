import IkgtUsage.Handler.LogArea
import IkgtUsage.Handler.MsrSpec

/-!
# Which events are logged

`log_event` is called from three places: for every write violation of a page, for a control register
write that differs in a bit whose entry has LOG, and for a write to an MSR whose entry has LOG.
`Audited` says so of an event in the state it comes to, and where no request fails it is exactly the
condition under which the event is logged, once (`logEvents_reportEvent`). Messages never are
(`logView_message`).
-/

namespace IkgtUsage

open Framework Lib

/-! ## Messages do not log -/

/-- A monitoring request leaves the log area and the registers alone. -/
theorem policySetMonitor_frame (entry : PolicyEntry) (enable : Bool) (fw : Framework) :
    (policySetMonitor entry enable fw).2.hostLog = fw.hostLog ∧
      (policySetMonitor entry enable fw).2.env = fw.env ∧
      (policySetMonitor entry enable fw).2.reg = fw.reg := by
  have hcpu : ∀ reg, (policyMonitorCpuEvents entry reg enable fw).2.hostLog = fw.hostLog ∧
      (policyMonitorCpuEvents entry reg enable fw).2.env = fw.env ∧
      (policyMonitorCpuEvents entry reg enable fw).2.reg = fw.reg := by
    intro reg
    by_cases hmalloc : fw.nextOutcome = .success <;>
      simp [policyMonitorCpuEvents, utilMonitorCpuEvents, ikgtMalloc, hmalloc, callService, tick]
  unfold policySetMonitor
  split
  · exact hcpu _
  · split
    · exact hcpu _
    · by_cases hmalloc : fw.nextOutcome = .success <;>
        by_cases hmsr : resIdToMsr entry.resourceId = ia32MsrInvalid <;>
        simp [policyMonitorMsr, utilMonitorMsr, ikgtMalloc, hmalloc, hmsr, callService, tick]

theorem hostLog_translatePages (permission : U32) :
    ∀ (pages : Nat) (startAddr : U64) (items : List PageItem) (fw : Framework),
      (translatePages permission pages startAddr items fw).2.2.hostLog = fw.hostLog
  | 0, _, _, _ => rfl
  | pages + 1, startAddr, items, fw => by
    simp only [translatePages]
    split
    · exact hostLog_translatePages permission pages _ _ _
    · rfl

theorem hostLog_utilMonitorMemory (startAddr : U64) (size permission : U32) (fw : Framework) :
    (utilMonitorMemory startAddr size permission fw).2.hostLog = fw.hostLog := by
  simp only [utilMonitorMemory, ikgtMalloc, Bool.not_eq_true', decide_eq_false_iff_not]
  split
  · rfl
  · split
    · rfl
    · split
      · rfl
      · simp only [updatePages]
        split
        · exact hostLog_translatePages permission _ _ _ _
        · exact hostLog_translatePages permission _ _ _ _

theorem hostLog_monitorMemoryBlocks (permission : U32) :
    ∀ (rounds : Nat) (startAddr : U64) (size : U32) (status : IkgtStatus) (fw : Framework),
      (monitorMemoryBlocks permission rounds startAddr size status fw).2.hostLog = fw.hostLog
  | 0, _, _, _, _ => rfl
  | rounds + 1, startAddr, size, status, fw => by
    simp only [monitorMemoryBlocks]
    split
    · rfl
    · split
      · exact (hostLog_monitorMemoryBlocks permission rounds _ _ _ _).trans
          (hostLog_utilMonitorMemory _ _ _ fw)
      · exact hostLog_utilMonitorMemory _ _ _ fw

/-- Starting the log does not write to the area. -/
theorem hostLog_startLog (viewHandle : U32) (msg : LogMessage) (s : HandlerState) :
    (startLog viewHandle msg s).fw.hostLog = s.fw.hostLog := by
  unfold startLog
  simp only
  split
  · rfl
  · split
    · rfl
    · split
      · rfl
      · exact hostLog_monitorMemoryBlocks permissionRead _ _ _ _ _

/-- A policy command leaves the log alone. -/
theorem PolicyCommand.logView_apply (c : PolicyCommand) (s : HandlerState) :
    (c.apply s).logView = s.logView := by
  cases c with
  | enable msg =>
    have hfw := policySetMonitor_frame (policyMsgToEntry msg s.fw.env.stackFlags) true s.fw
    simp only [apply, policyMsgAdd]
    cases s.gPolicyTable with
    | none => rfl
    | some t =>
      by_cases hid : msg.resourceId = resourceIdUnknown
      · simp [hid]
      · simp [hid, HandlerState.logView, hfw.1, hfw.2.1]
  | disable msg =>
    have hfw := policySetMonitor_frame (policyMsgToEntry msg s.fw.env.stackFlags) false s.fw
    simp only [apply, policyMsgDel]
    cases s.gPolicyTable with
    | none => rfl
    | some t =>
      by_cases hid : msg.resourceId = resourceIdUnknown
      · simp [hid]
      · simp [hid, HandlerState.logView, hfw.1, hfw.2.1]
  | makeImmutable => rfl

/-- A policy command changes no register. -/
theorem PolicyCommand.reg_apply (c : PolicyCommand) (s : HandlerState) :
    (c.apply s).fw.reg = s.fw.reg := by
  cases c with
  | enable msg =>
    have hfw := policySetMonitor_frame (policyMsgToEntry msg s.fw.env.stackFlags) true s.fw
    simp only [apply, policyMsgAdd]
    cases s.gPolicyTable with
    | none => rfl
    | some t =>
      by_cases hid : msg.resourceId = resourceIdUnknown
      · simp [hid]
      · simp [hid, hfw.2.2]
  | disable msg =>
    have hfw := policySetMonitor_frame (policyMsgToEntry msg s.fw.env.stackFlags) false s.fw
    simp only [apply, policyMsgDel]
    cases s.gPolicyTable with
    | none => rfl
    | some t =>
      by_cases hid : msg.resourceId = resourceIdUnknown
      · simp [hid]
      · simp [hid, hfw.2.2]
  | makeImmutable => rfl

/-- The event is a message that starts the log. -/
def Event.StartsLog (e : Event) : Prop :=
  ∃ content, e.data = .msg content ∧ content.command = CommandCode.policyInitLog.code

/-- **Any other message leaves the log alone.** -/
theorem logView_message (debug : Bool) (s : HandlerState) {e : Event} {content : PolicyMessage}
    (hdata : e.data = .msg content) (hcommand : content.command ≠ CommandCode.policyInitLog.code) :
    (reportEvent debug s e).logView = (s.entered e.env).logView := by
  by_cases hinit : s.gBInitStatus = true
  swap
  · have hstop : (!s.gBInitStatus) = true := by simpa using hinit
    exact congrArg HandlerState.logView (if_pos hstop)
  rw [reportEvent_eq hinit, hdata]
  simp only
  rw [handleMsgEvent_entered]
  split
  · split
    · rw [dispatchMsg_eq, if_neg hcommand]
      split
      · split
        · rfl
        · exact PolicyCommand.logView_apply _ _
      · rfl
    · rfl
  · rfl

/-- **An event logs at most once**, for its own thread, unless it starts the log. -/
theorem logsAtMostOnce_reportEvent (debug : Bool) (s : HandlerState) {e : Event}
    (he : ¬ e.StartsLog) : LogsAtMostOnce e.info (s.entered e.env) (reportEvent debug s e) := by
  obtain ⟨env, info, data⟩ := e
  cases data with
  | mem meminfo => exact logView_reportEvent debug s (e := ⟨env, info, .mem meminfo⟩) trivial
  | cpu cpuinfo => exact logView_reportEvent debug s (e := ⟨env, info, .cpu cpuinfo⟩) trivial
  | msg content => exact Or.inl (logView_message debug s rfl fun h => he ⟨content, rfl, h⟩)
  | other type =>
    refine Or.inl (congrArg HandlerState.logView ?_)
    by_cases hinit : s.gBInitStatus = true
    · rw [reportEvent_eq hinit]
    · have hstop : (!s.gBInitStatus) = true := by simpa using hinit
      exact if_pos hstop

/-! ## What is to be logged -/

/-- The write differs from the register in a bit whose entry has LOG. -/
def AuditedCr (cr : GuestCr) (operandReg : IkgtCpuReg) (s : HandlerState) : Prop :=
  match getIkgtVmcsGuestRegId operandReg with
  | some operand =>
    ∃ entry ∈ s.slots, Differs cr.reg (s.cr cr) (s.fw.reg operand) entry ∧ entry.wHasLog = true
  | none => False

/-- RCX is an MSR whose entry has LOG. -/
def AuditedMsr (s : HandlerState) : Prop :=
  ∃ row ∈ msrResIdTable, s.gp .rcx = row.1.zeroExtend 64 ∧
    ∃ entry ∈ s.slots, entry.resourceId = row.2.code ∧ entry.wHasLog = true

/-- The policy says to log the event. -/
def Audited (s : HandlerState) (e : Event) : Prop :=
  match e.data with
  | .mem meminfo => violationType meminfo = .writeViolation
  | .cpu ⟨.reg, .cr0, operandReg⟩ => AuditedCr .cr0 operandReg s
  | .cpu ⟨.reg, .cr4, operandReg⟩ => AuditedCr .cr4 operandReg s
  | .cpu ⟨.msr, _, _⟩ => AuditedMsr s
  | _ => False

theorem auditedCr_iff {operandReg : IkgtCpuReg} {operand : VmcsReg}
    (ho : getIkgtVmcsGuestRegId operandReg = some operand) (cr : GuestCr) (s : HandlerState) :
    AuditedCr cr operandReg s ↔ ∃ entry ∈ s.slots,
      Differs cr.reg (s.cr cr) (s.fw.reg operand) entry ∧ entry.wHasLog = true := by
  unfold AuditedCr
  rw [ho]

theorem not_auditedCr {operandReg : IkgtCpuReg} (ho : getIkgtVmcsGuestRegId operandReg = none)
    (cr : GuestCr) (s : HandlerState) : ¬ AuditedCr cr operandReg s := by
  unfold AuditedCr
  rw [ho]
  exact id

instance (cr : GuestCr) (operandReg : IkgtCpuReg) (s : HandlerState) :
    Decidable (AuditedCr cr operandReg s) := by
  unfold AuditedCr
  split <;> infer_instance

instance (s : HandlerState) : Decidable (AuditedMsr s) := by
  unfold AuditedMsr
  infer_instance

instance (s : HandlerState) (e : Event) : Decidable (Audited s e) := by
  unfold Audited
  split <;> infer_instance

/-! ## Where no request fails -/

section

variable {s : HandlerState} {env : Surroundings} (info : EventInfo)

/-- A memory event. -/
theorem logEvents_handleMemoryEvent (meminfo : MemEventInfo) :
    (handleMemoryEvent info meminfo (s.entered env)).logEvents =
      if violationType meminfo = .writeViolation then ⟨info.threadId, info.rip⟩ :: s.logEvents
      else s.logEvents := by
  unfold handleMemoryEvent
  by_cases hwrite : violationType meminfo = .writeViolation
  · rw [if_pos hwrite, hwrite]
    exact logEvents_logEvent _ _ _
  · rw [if_neg hwrite]
    simp only
    split
    · rfl
    · rfl
    · rfl
    · rename_i hwrite'
      exact absurd hwrite' hwrite
    · rfl

/-- A write of the value that is there. -/
theorem filterCrWrite_self (k : ControlReg) (operandRegId : VmcsReg) (cur : U64)
    (s : HandlerState) : filterCrWrite k info operandRegId cur cur s = s := by
  unfold filterCrWrite
  exact if_pos BitVec.xor_self

/-- A control register write. -/
theorem logEvents_handleCrEvent (cr : GuestCr)
    (hd : Distinct PolicyEntry.resourceId resourceIdUnknown s.slots)
    (hok : ∀ n, env.outcome n = .success) (operandReg : IkgtCpuReg) :
    (handleCrEvent cr.reg info ⟨.reg, cr.reg.eventReg, operandReg⟩ (s.entered env)).logEvents =
      if AuditedCr cr operandReg s then ⟨info.threadId, info.rip⟩ :: s.logEvents
      else s.logEvents := by
  cases ho : getIkgtVmcsGuestRegId operandReg with
  | none =>
    rw [if_neg (not_auditedCr ho cr s)]
    -- the register is unknown: the handler stops before or after it has read the control register
    have hread := readGuestReg_ok (s.entered env).fw hok cr.reg.vmcsReg
    unfold handleCrEvent
    simp only [ho, hread, ne_eq, not_true_eq_false, if_false]
    split
    · rfl
    · rfl
  | some operand =>
    have hcr : (s.entered env).fw.reg cr.reg.vmcsReg = s.cr cr := rfl
    have hop : (s.entered env).fw.reg operand = s.fw.reg operand := rfl
    rw [handleCrEvent_ok (s := s.entered env) hok info ⟨.reg, cr.reg.eventReg, operandReg⟩ ho, hcr,
      hop]
    simp only [auditedCr_iff ho]
    by_cases hsame : s.fw.reg operand = s.cr cr
    · -- no bit differs
      have hnone : ¬ ∃ entry ∈ s.slots,
          Differs cr.reg (s.cr cr) (s.fw.reg operand) entry ∧ entry.wHasLog = true := by
        rintro ⟨entry, -, ⟨b, -, -, hne⟩, -⟩
        exact hne (by rw [hsame])
      rw [if_neg hnone, hsame, filterCrWrite_self]
      rfl
    · exact (filterCrWrite_spec cr (s := { s.entered env with
        response := .allow
        fw := (s.entered env).fw.tick.tick.tick.tick }) hd hok info operand hsame).logged

/-- A write to an MSR. -/
theorem logEvents_handleMsrEvent
    (hd : Distinct PolicyEntry.resourceId resourceIdUnknown s.slots)
    (hok : ∀ n, env.outcome n = .success) :
    (handleMsrEvent info (s.entered env)).logEvents =
      if AuditedMsr s then ⟨info.threadId, info.rip⟩ :: s.logEvents else s.logEvents := by
  have hnofail : ¬ env.FailedWithin 8 := fun ⟨n, _, hn⟩ => hn (hok n)
  have hvisible := visible_handleMsrEvent (s := s.entered env) rfl info
  have hlog : ∀ {v : Visible}, (handleMsrEvent info (s.entered env)).visible = v →
      (handleMsrEvent info (s.entered env)).logEvents = v.logEvents := fun hv => hv ▸ rfl
  by_cases hknown : (msrSwitch (s.gp .rcx)).isSome = true
  swap
  · have hnone : ¬ AuditedMsr s := fun ⟨row, hrow, hrcx, _⟩ =>
      hknown ((msrSwitch_isSome_iff_row _).mpr ⟨row, hrow, hrcx⟩)
    rw [if_neg fun h => hknown h.2] at hvisible
    rw [if_neg hnone, hlog hvisible]
    rfl
  rw [if_pos ⟨hnofail, hknown⟩] at hvisible
  obtain ⟨row, hrow, hrcx⟩ := (msrSwitch_isSome_iff_row _).mp hknown
  have hlow : low ((s.entered env).gp .rcx) = row.1 := by
    change low (s.gp .rcx) = row.1
    rw [hrcx]
    exact BitVec.setWidth_setWidth_of_le _ (by decide)
  rw [hlow] at hvisible
  obtain ⟨hfree, hentry⟩ := filteredMsr_spec hrow (s := s.entered env) hd hvisible
    (.handleMsrEvent info (s.entered env))
  -- RCX is the number of this row only
  have hrows : ∀ row' ∈ msrResIdTable, s.gp .rcx = row'.1.zeroExtend 64 → row' = row := by
    intro row' hrow' hrcx'
    refine (msrResIdTable_rows row hrow).2.2 row' hrow' ?_
    have hlow' := congrArg low (hrcx'.symm.trans hrcx)
    unfold low at hlow'
    rwa [BitVec.truncate_eq_setWidth, BitVec.truncate_eq_setWidth, BitVec.zeroExtend_eq_setWidth,
      BitVec.zeroExtend_eq_setWidth, BitVec.setWidth_setWidth_of_le _ (by decide),
      BitVec.setWidth_setWidth_of_le _ (by decide), BitVec.setWidth_eq, BitVec.setWidth_eq]
      at hlow'
  by_cases hexists : ∃ e ∈ s.slots, e.resourceId = row.2.code
  swap
  · have hnone : ¬ AuditedMsr s := by
      rintro ⟨row', hrow', hrcx', e, he, hid, -⟩
      obtain rfl := hrows row' hrow' hrcx'
      exact hexists ⟨e, he, hid⟩
    rw [if_neg hnone, hlog (hfree fun e he hid => hexists ⟨e, he, hid⟩)]
    rfl
  obtain ⟨e, he, hid⟩ := hexists
  have haudited : AuditedMsr s ↔ e.wHasLog = true := by
    constructor
    · rintro ⟨row', hrow', hrcx', e', he', hid', hlog'⟩
      obtain rfl := hrows row' hrow' hrcx'
      have hsame := slotOf_of_mem hd he' (hid' ▸ row'.2.code_ne_unknown)
      rw [hid', ← hid, slotOf_of_mem hd he (hid ▸ row'.2.code_ne_unknown),
        Option.some_inj] at hsame
      exact hsame ▸ hlog'
    · exact fun h => ⟨row, hrow, hrcx, e, he, hid, h⟩
  simp only [haudited]
  exact (hentry e he hid).logged

end

/-- **An event is logged exactly if the policy says so.** A handler with any policy, any event,
where no request of the event fails: `log_event` is called once if the event is `Audited`, and else
not at all. -/
theorem logEvents_reportEvent (debug : Bool) {s : HandlerState} {m : PolicyMap} (h : Refines s m)
    {e : Event} (hok : ∀ n, e.env.outcome n = .success) :
    (reportEvent debug s e).logEvents =
      if Audited s e then ⟨e.info.threadId, e.info.rip⟩ :: s.logEvents else s.logEvents := by
  obtain ⟨env, info, data⟩ := e
  rw [reportEvent_eq h.init]
  cases data with
  | mem meminfo =>
    exact logEvents_handleMemoryEvent info meminfo
  | msg content =>
    have hview : (handleMsgEvent debug info content (s.entered env)).logEvents = s.logEvents := by
      have hmsg := handleMsgEvent_entered debug ⟨env, info, .msg content⟩ content s
      simp only at hmsg
      rw [hmsg, if_pos (hok 0), if_pos (hok 1), dispatchMsg_eq]
      split
      · unfold startLog
        simp only
        split
        · rfl
        · split
          · rfl
          · split
            · rfl
            · rfl
      · split
        · split
          · rfl
          · exact congrArg LogView.logEvents (PolicyCommand.logView_apply _ _)
        · rfl
    exact hview
  | other type => rfl
  | cpu cpuinfo =>
    obtain ⟨optype, eventReg, operandReg⟩ := cpuinfo
    cases optype with
    | cpuid => rfl
    | other n => rfl
    | msr => exact logEvents_handleMsrEvent info h.distinct hok
    | reg =>
      cases eventReg with
      | cr0 => exact logEvents_handleCrEvent info .cr0 h.distinct hok operandReg
      | cr4 => exact logEvents_handleCrEvent info .cr4 h.distinct hok operandReg
      | unknown => rfl
      | gp r => rfl
      | cr3 => rfl
      | other n => rfl

end IkgtUsage
