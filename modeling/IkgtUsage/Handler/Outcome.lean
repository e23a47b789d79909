import IkgtUsage.Handler.PolicyMap

/-!
# What a register write event comes to

A write event makes up to eight requests of the framework. `Surroundings.FailedWithin` says that one
of those made so far has failed. Each register access has two outcomes, and so a control register
write has three (`handleCrEvent_cases`): it is redirected, and the filtered value is the current
one; it is allowed with the operand register holding the filtered value; or a request has failed,
it is allowed and the registers are as the guest left them. An MSR write has three as well
(`handleMsrEvent_cases`): a request has failed, the switch does not know the register, or the
policy decides. It changes no register.
-/

namespace IkgtUsage

open Framework Lib

/-! ## Requests that fail -/

/-- One of the first `requests` requests fails. -/
def Surroundings.FailedWithin (env : Surroundings) (requests : Nat) : Prop :=
  ∃ n < requests, env.outcome n ≠ .success

instance (env : Surroundings) (requests : Nat) : Decidable (env.FailedWithin requests) :=
  inferInstanceAs (Decidable (∃ n < requests, env.outcome n ≠ .success))

/-- A register read makes two requests and succeeds with the register's value, or one of them
fails. -/
theorem readGuestReg_cases (regId : VmcsReg) (fw : Framework) :
    (fw.nextOutcome = .success ∧ fw.tick.nextOutcome = .success ∧
        readGuestReg regId fw = (.success, fw.reg regId, fw.tick.tick)) ∨
      ((readGuestReg regId fw).1 ≠ .success ∧
        fw.env.FailedWithin (readGuestReg regId fw).2.2.requests ∧
        (readGuestReg regId fw).2.2.requests ≤ fw.requests + 2 ∧
        (readGuestReg regId fw).2.2.reg = fw.reg) := by
  unfold readGuestReg
  simp only [ikgtMalloc, decide_eq_true_eq]
  split
  · rename_i hmalloc
    by_cases hread : fw.tick.nextOutcome = .success
    · simp only [ikgtReadGuestRegisters, hread, if_true]
      exact Or.inl ⟨hmalloc, trivial, rfl⟩
    · exact Or.inr ⟨hread, ⟨fw.requests + 1, Nat.lt_succ_self _, hread⟩, le_refl _, rfl⟩
  · rename_i hmalloc
    have hfailed : fw.env.FailedWithin (fw.requests + 1) :=
      ⟨fw.requests, Nat.lt_succ_self _, hmalloc⟩
    exact Or.inr ⟨IkgtStatus.noConfusion, hfailed, Nat.le_succ _, rfl⟩

/-- A register write updates the register, or fails. -/
theorem writeGuestReg_cases (regId : VmcsReg) (value : U64) (fw : Framework) :
    (writeGuestReg regId value fw).2.reg = Function.update fw.reg regId value ∨
      fw.env.FailedWithin (writeGuestReg regId value fw).2.requests ∧
        (writeGuestReg regId value fw).2.reg = fw.reg := by
  unfold writeGuestReg
  simp only [ikgtMalloc, decide_eq_true_eq]
  split
  · unfold ikgtWriteGuestRegisters
    simp only
    split
    · exact Or.inl rfl
    · rename_i hwrite
      exact Or.inr ⟨⟨fw.requests + 1, Nat.lt_succ_self _, hwrite⟩, rfl⟩
  · rename_i hmalloc
    exact Or.inr ⟨⟨fw.requests, Nat.lt_succ_self _, hmalloc⟩, rfl⟩

@[simp] theorem reg_logEvent (threadId rip : U64) (s : HandlerState) :
    (logEvent threadId rip s).fw.reg = s.fw.reg := by
  unfold logEvent
  simp only
  split
  · rfl
  · split <;> rfl

@[simp] theorem env_logEvent (threadId rip : U64) (s : HandlerState) :
    (logEvent threadId rip s).fw.env = s.fw.env := by
  unfold logEvent
  simp only
  split
  · rfl
  · split <;> rfl

/-- Starting the log changes no register. -/
theorem reg_startLog (viewHandle : U32) (msg : LogMessage) (s : HandlerState) :
    (startLog viewHandle msg s).fw.reg = s.fw.reg := by
  unfold startLog
  simp only
  split
  · rfl
  · split
    · rfl
    · split
      · rfl
      · exact (Quiet.utilMonitorMemoryEx _ _ _ _).reg

/-! ## The filtered value -/

/-- The value the slot loop makes of a write of `new` over `cur`. -/
def filteredCr (k : ControlReg) (slots : List PolicyEntry) (cur new : U64) : U64 :=
  (crPolicyLoop k slots ⟨new, cur, cur ^^^ new, false⟩).2.newCrValue

/-- What an entry makes of its bit: STICKY gives its value, SKIP the current one. -/
def PolicyEntry.settle (e : PolicyEntry) (cur new : Bool) : Bool :=
  if cur = new then cur
  else if e.hasSticky then e.stickyVal.getLsbD 0
  else if e.wHasSkip then cur
  else new

variable {k : ControlReg} {slots : List PolicyEntry}

/-- The bit of an entry in the filtered value. -/
theorem filteredCr_bit (hd : Distinct PolicyEntry.resourceId resourceIdUnknown slots)
    {e : PolicyEntry} (he : e ∈ slots) {b : Nat} (hb : k.BitOf b e.resourceId) (cur new : U64) :
    (filteredCr k slots cur new).getLsbD b = e.settle (cur.getLsbD b) (new.getLsbD b) := by
  have hfind : (slots.find? fun e' => k.BitOf b e'.resourceId) = some e := by
    have hkey : (fun e' : PolicyEntry => decide (k.BitOf b e'.resourceId)) =
        fun e' => decide (e'.resourceId = e.resourceId) := by
      funext e'
      exact decide_eq_decide.mpr ⟨fun h => h.unique hb, fun h => h ▸ hb⟩
    rw [hkey]
    exact Lib.slotOf_of_mem hd he hb.ne_unknown
  unfold filteredCr
  rw [filtered_bit hd, hfind]
  rfl

/-- A write that changes nothing is left alone. -/
theorem filteredCr_self (hd : Distinct PolicyEntry.resourceId resourceIdUnknown slots)
    (cur : U64) : filteredCr k slots cur cur = cur := by
  apply BitVec.eq_of_getLsbD_eq
  intro b _
  unfold filteredCr
  rw [filtered_bit hd]
  split
  · exact if_pos rfl
  · rfl

/-! ## The event -/

/-- The three outcomes of a write of `new` over `cur` through the register `operand`, from `s` to
`s'`. -/
inductive CrOutcome (k : ControlReg) (operand : VmcsReg) (s s' : HandlerState) : Prop
  /-- The filtered value is the current one: the write is skipped. -/
  | redirected (hr : s'.response = .redirect)
      (hv : filteredCr k s.slots (s.fw.reg k.vmcsReg) (s.fw.reg operand) = s.fw.reg k.vmcsReg)
      (hreg : s'.fw.reg = s.fw.reg)
  /-- The operand register holds the filtered value. -/
  | allowed (hr : s'.response = .allow)
      (hreg : s'.fw.reg = Function.update s.fw.reg operand
        (filteredCr k s.slots (s.fw.reg k.vmcsReg) (s.fw.reg operand)))
  /-- A request has failed and nothing was changed. -/
  | failed (hr : s'.response = .allow) (hf : s.fw.env.FailedWithin s'.fw.requests)
      (hreg : s'.fw.reg = s.fw.reg)

theorem filterCrWrite_cases {s : HandlerState}
    (hd : Distinct PolicyEntry.resourceId resourceIdUnknown s.slots)
    (hr : s.response = .allow) (ev : EventInfo) (operand : VmcsReg) :
    CrOutcome k operand s
      (filterCrWrite k ev operand (s.fw.reg k.vmcsReg) (s.fw.reg operand) s) := by
  unfold filterCrWrite
  simp only
  by_cases hdiff : s.fw.reg k.vmcsReg ^^^ s.fw.reg operand = 0
  · have hsame : s.fw.reg k.vmcsReg = s.fw.reg operand := BitVec.xor_eq_zero_iff.mp hdiff
    rw [if_pos hdiff]
    refine .allowed hr ?_
    rw [hsame, filteredCr_self hd, Function.update_eq_self]
  rw [if_neg hdiff]
  have hv : (crPolicyLoop k s.slots ⟨s.fw.reg operand, s.fw.reg k.vmcsReg,
      s.fw.reg k.vmcsReg ^^^ s.fw.reg operand, false⟩).2.newCrValue =
      filteredCr k s.slots (s.fw.reg k.vmcsReg) (s.fw.reg operand) := rfl
  generalize crPolicyLoop k s.slots _ = r at hv ⊢
  obtain ⟨slots, ctx⟩ := r
  simp only at hv ⊢
  have hlog : (if ctx.log = true then logEvent ev.threadId ev.rip (s.withSlots slots)
      else s.withSlots slots).fw.reg = s.fw.reg := by
    split
    · exact reg_logEvent _ _ _
    · rfl
  have henv : (if ctx.log = true then logEvent ev.threadId ev.rip (s.withSlots slots)
      else s.withSlots slots).fw.env = s.fw.env := by
    split
    · exact env_logEvent _ _ _
    · rfl
  generalize (if ctx.log = true then logEvent ev.threadId ev.rip (s.withSlots slots)
      else s.withSlots slots) = s1 at hlog henv ⊢
  by_cases hcur : ctx.newCrValue = s.fw.reg k.vmcsReg
  · rw [if_pos hcur]
    exact .redirected rfl (hv ▸ hcur) hlog
  · rw [if_neg hcur]
    rcases writeGuestReg_cases operand ctx.newCrValue s1.fw with hw | ⟨hf, hw⟩
    · exact .allowed rfl (by rw [hw, hlog, hv])
    · exact .failed rfl (henv ▸ hf) (hw.trans hlog)

/-- **A control register write event** through a register the framework knows. -/
theorem handleCrEvent_cases {s : HandlerState}
    (hd : Distinct PolicyEntry.resourceId resourceIdUnknown s.slots) (ev : EventInfo)
    (cpuinfo : CpuEventInfo) {operand : VmcsReg}
    (ho : getIkgtVmcsGuestRegId cpuinfo.operandReg = some operand) :
    CrOutcome k operand s (handleCrEvent k ev cpuinfo s) := by
  have hknown : cpuinfo.operandReg ≠ .unknown := by
    intro h
    rw [h] at ho
    cases ho
  unfold handleCrEvent
  simp only
  rw [if_neg hknown]
  rcases readGuestReg_cases k.vmcsReg s.fw with ⟨-, -, hcur⟩ | ⟨hcur, hf, -, hreg⟩
  swap
  · rw [if_pos hcur]
    exact .failed rfl hf hreg
  simp only [hcur, ho, ne_eq, not_true_eq_false, if_false]
  rcases readGuestReg_cases operand s.fw.tick.tick with ⟨-, -, hnew⟩ | ⟨hnew, hf, -, hreg⟩
  swap
  · rw [if_pos hnew]
    exact .failed rfl hf hreg
  simp only [hnew, not_true_eq_false, if_false]
  have hcases := filterCrWrite_cases (k := k)
    (s := { s with response := .allow, fw := s.fw.tick.tick.tick.tick }) hd rfl ev operand
  cases hcases with
  | redirected hr hv hreg => exact .redirected hr hv hreg
  | allowed hr hreg => exact .allowed hr hreg
  | failed hr hf hreg => exact .failed hr hf hreg

/-! ## MSR writes -/

/-- What an event leaves to be seen of it: the response, the calls of `log_event`, the table. -/
structure Visible where
  response : IkgtEventResponse
  logEvents : List LogEventCall
  gPolicyTable : Option PolicyTable
  deriving DecidableEq

/-- What is seen of a state. -/
def HandlerState.visible (s : HandlerState) : Visible :=
  ⟨s.response, s.logEvents, s.gPolicyTable⟩

/-- The default: the write is allowed, nothing else happens. -/
def HandlerState.untouched (s : HandlerState) : Visible := ⟨.allow, s.logEvents, s.gPolicyTable⟩

/-- What the policy makes of a write of `value` to `msrId`: the first slot of that MSR decides. -/
def filteredMsr (ev : EventInfo) (msrId : U32) (value : U64) (s : HandlerState) : Visible :=
  match s.slots.find? (isMsrEntry msrId) with
  | none => s.untouched
  | some entry =>
    ⟨msrPolicyResponse entry ⟨value, 0, msrId⟩,
      if entry.wHasLog then ⟨ev.threadId, ev.rip⟩ :: s.logEvents else s.logEvents,
      s.gPolicyTable.map fun t =>
        t.replaceSlots (updateFirst (isMsrEntry msrId) PolicyEntry.incAccessCount t.policyEntry)⟩

theorem logEvents_logEvent (threadId rip : U64) (s : HandlerState) :
    (logEvent threadId rip s).logEvents = ⟨threadId, rip⟩ :: s.logEvents := by
  unfold logEvent
  simp only
  split
  · rfl
  · split <;> rfl

theorem gPolicyTable_logEvent (threadId rip : U64) (s : HandlerState) :
    (logEvent threadId rip s).gPolicyTable = s.gPolicyTable := by
  unfold logEvent
  simp only
  split
  · rfl
  · split <;> rfl

/-- The slot loop of an MSR write, as far as it can be seen. -/
theorem visible_msrPolicyLoop (ev : EventInfo) (ctx : PolicyMsrCtx) {s : HandlerState}
    (hr : s.response = .allow) :
    (msrPolicyLoop ev ctx s).visible = filteredMsr ev ctx.msrId ctx.newValue s := by
  unfold msrPolicyLoop filteredMsr
  cases hfind : s.slots.find? (isMsrEntry ctx.msrId) with
  | none => simp [HandlerState.visible, HandlerState.untouched, hr]
  | some entry =>
    simp only
    have hlog : (if entry.wHasLog = true then logEvent ev.threadId ev.rip s else s).logEvents =
        if entry.wHasLog = true then ⟨ev.threadId, ev.rip⟩ :: s.logEvents else s.logEvents := by
      split
      · exact logEvents_logEvent _ _ _
      · rfl
    have htable : (if entry.wHasLog = true then logEvent ev.threadId ev.rip s
        else s).gPolicyTable = s.gPolicyTable := by
      split
      · exact gPolicyTable_logEvent _ _ _
      · rfl
    generalize (if entry.wHasLog = true then logEvent ev.threadId ev.rip s else s) = s1
      at hlog htable ⊢
    simp only [HandlerState.visible, HandlerState.withSlots, HandlerState.slots, htable, hlog]
    cases s.gPolicyTable <;> rfl

/-- The register of an MSR write event. -/
def HandlerState.gp (s : HandlerState) (r : GpReg) : U64 := s.fw.reg (.gp r)

/-- The three outcomes of an MSR write event. -/
inductive MsrOutcome (ev : EventInfo) (s s' : HandlerState) : Prop
  /-- One of the requests fails. -/
  | failed (hv : s'.visible = s.untouched) (hf : s.fw.env.FailedWithin s'.fw.requests)
      (hmax : s'.fw.requests ≤ 8)
  /-- The switch does not know the register. -/
  | ignored (hv : s'.visible = s.untouched) (hrcx : msrSwitch (s.gp .rcx) = none)
  /-- The policy decides. -/
  | filtered (hok : ¬ s.fw.env.FailedWithin 8) (hrcx : (msrSwitch (s.gp .rcx)).isSome = true)
      (hv : s'.visible =
        filteredMsr ev ((s.gp .rcx).truncate 32) (makeU64 (s.gp .rdx) (s.gp .rax)) s)

/-- **An MSR write event**, the first request being number `0`. -/
theorem handleMsrEvent_cases {s : HandlerState} (hstart : s.fw.requests = 0) (ev : EventInfo) :
    MsrOutcome ev s (handleMsrEvent ev s) := by
  have htick : ∀ fw : Framework, fw.tick.requests = fw.requests + 1 := fun _ => rfl
  have houtcome : ∀ n, s.fw.env.outcome (s.fw.requests + n) = s.fw.env.outcome n := by simp [hstart]
  unfold handleMsrEvent
  simp only
  rcases readGuestReg_cases (.gp .rax) s.fw with ⟨h0, h1, hrax⟩ | ⟨hrax, hf, hmax, -⟩
  swap
  · rw [if_pos hrax]
    exact .failed rfl hf (hmax.trans (by omega))
  simp only [hrax, ne_eq, not_true_eq_false, if_false]
  rcases readGuestReg_cases (.gp .rcx) s.fw.tick.tick with ⟨h2, h3, hrcx⟩ | ⟨hrcx, hf, hmax, -⟩
  swap
  · rw [if_pos hrcx]
    exact .failed rfl hf (hmax.trans (by rw [htick, htick]; omega))
  simp only [hrcx, not_true_eq_false, if_false]
  rcases readGuestReg_cases (.gp .rdx) s.fw.tick.tick.tick.tick with
    ⟨h4, h5, hrdx⟩ | ⟨hrdx, hf, hmax, -⟩
  swap
  · rw [if_pos hrdx]
    exact .failed rfl hf (hmax.trans (by rw [htick, htick, htick, htick]; omega))
  simp only [hrdx, not_true_eq_false, if_false]
  unfold filterMsrWrite
  cases hswitch : msrSwitch (s.gp .rcx) with
  | none =>
    have hswitch' : msrSwitch (s.fw.tick.tick.reg (.gp .rcx)) = none := hswitch
    rw [hswitch']
    exact .ignored rfl hswitch
  | some reg =>
    have hswitch' : msrSwitch (s.fw.tick.tick.reg (.gp .rcx)) = some reg := hswitch
    rw [hswitch']
    simp only
    rcases readGuestReg_cases reg s.fw.tick.tick.tick.tick.tick.tick with
      ⟨h6, h7, hcur⟩ | ⟨hcur, hf, hmax, -⟩
    swap
    · rw [if_pos hcur]
      exact .failed rfl hf (hmax.trans (by simp only [htick]; omega))
    simp only [hcur]
    refine .filtered ?_ (by rw [hswitch]; rfl) (visible_msrPolicyLoop ev _ rfl)
    rintro ⟨n, hn, hfail⟩
    rw [← houtcome] at hfail
    have hn' : n = 0 ∨ n = 1 ∨ n = 2 ∨ n = 3 ∨ n = 4 ∨ n = 5 ∨ n = 6 ∨ n = 7 := by omega
    rcases hn' with rfl | rfl | rfl | rfl | rfl | rfl | rfl | rfl
    exacts [hfail h0, hfail h1, hfail h2, hfail h3, hfail h4, hfail h5, hfail h6, hfail h7]

theorem reg_msrPolicyLoop (ev : EventInfo) (ctx : PolicyMsrCtx) (s : HandlerState) :
    (msrPolicyLoop ev ctx s).fw.reg = s.fw.reg := by
  unfold msrPolicyLoop
  split
  · rfl
  · simp only [HandlerState.withSlots]
    split
    · exact reg_logEvent _ _ _
    · rfl

/-- An MSR write event changes no register. -/
theorem reg_handleMsrEvent (ev : EventInfo) (s : HandlerState) :
    (handleMsrEvent ev s).fw.reg = s.fw.reg := by
  have hrax := (Quiet.readGuestReg (.gp .rax) s.fw).reg
  have hrcx := (Quiet.readGuestReg (.gp .rcx) (readGuestReg (.gp .rax) s.fw).2.2).reg.trans hrax
  have hrdx := (Quiet.readGuestReg (.gp .rdx)
    (readGuestReg (.gp .rcx) (readGuestReg (.gp .rax) s.fw).2.2).2.2).reg.trans hrcx
  unfold handleMsrEvent
  simp only
  split
  · exact hrax
  · split
    · exact hrcx
    · split
      · exact hrdx
      · unfold filterMsrWrite
        split
        · exact hrdx
        · simp only
          split
          · exact (Quiet.readGuestReg _ _).reg.trans hrdx
          · exact (reg_msrPolicyLoop _ _ _).trans ((Quiet.readGuestReg _ _).reg.trans hrdx)

end IkgtUsage
