import IkgtUsage.Handler.GuestCr
import IkgtUsage.Handler.MsrBits

/-!
# What an allowed write may do

The handler allows by default: `handler_report_event` and each register handler set the response to
ALLOW before anything else, and a failing request leaves it so. Hence an allowed write is one the
policy permits, or a request of this event has failed and the guest's registers are as the guest
left them (`allowed_write`). Where an entry has STICKY, its SKIP is not looked at.
-/

namespace IkgtUsage

open Framework Lib

/-! ## What the policy permits -/

/-- The entry lets a bit go from `cur` to `new`. -/
def PolicyEntry.PermitsBit (e : PolicyEntry) (cur new : Bool) : Prop :=
  cur = new ∨ if e.hasSticky then new = e.stickyVal.getLsbD 0 else e.wHasSkip = false

/-- The slots let a control register go from `cur` to `new`. -/
def CrWritePermitted (k : ControlReg) (slots : List PolicyEntry) (cur new : U64) : Prop :=
  ∀ e ∈ slots, ∀ b, k.BitOf b e.resourceId → e.PermitsBit (cur.getLsbD b) (new.getLsbD b)

/-- The entry is about the MSR `msrId`. -/
def PolicyEntry.IsAboutMsr (e : PolicyEntry) (msrId : U32) : Prop :=
  ∃ row ∈ msrResIdTable, row.1 = msrId ∧ row.2.code = e.resourceId

/-- The slots let `value` be written to the MSR `msrId`. -/
def MsrWritePermitted (slots : List PolicyEntry) (msrId : U32) (value : U64) : Prop :=
  ∀ e ∈ slots, e.IsAboutMsr msrId →
    if e.hasSticky then value = e.stickyVal else e.wHasSkip = false

theorem PolicyEntry.permitsBit_settle (e : PolicyEntry) (cur new : Bool) :
    e.PermitsBit cur (e.settle cur new) := by
  unfold PermitsBit settle
  split
  · exact Or.inl rfl
  · cases hs : e.hasSticky with
    | true => exact Or.inr (by simp)
    | false =>
      cases hk : e.wHasSkip with
      | true => exact Or.inl (by simp)
      | false => exact Or.inr (by simp)

/-- The filtered value is permitted. -/
theorem crWritePermitted_filteredCr {k : ControlReg} {slots : List PolicyEntry}
    (hd : Distinct PolicyEntry.resourceId resourceIdUnknown slots) (cur new : U64) :
    CrWritePermitted k slots cur (filteredCr k slots cur new) := by
  intro e he b hb
  rw [filteredCr_bit hd he hb]
  exact e.permitsBit_settle _ _

/-! ## MSR entries -/

/-- The rows of `msr_res_id_table` have distinct ids and distinct numbers, none invalid. -/
theorem msrResIdTable_rows : ∀ row ∈ msrResIdTable, resIdToMsr row.2.code = row.1 ∧
    row.1 ≠ ia32MsrInvalid ∧ ∀ row' ∈ msrResIdTable, row'.1 = row.1 → row' = row := by
  decide

theorem PolicyEntry.IsAboutMsr.isMsrEntry {e : PolicyEntry} {msrId : U32}
    (h : e.IsAboutMsr msrId) : isMsrEntry msrId e = true := by
  obtain ⟨row, hrow, rfl, hid⟩ := h
  have hmsr := (msrResIdTable_rows row hrow).1
  rw [hid] at hmsr
  have hne : e.resourceId ≠ resourceIdUnknown := hid ▸ row.2.code_ne_unknown
  simp [IkgtUsage.isMsrEntry, hne, hmsr]

/-- A slot found for the number of a row has the row's id. -/
theorem resourceId_of_isMsrEntry {e e' : PolicyEntry} {msrId : U32} (h : e.IsAboutMsr msrId)
    (h' : isMsrEntry msrId e' = true) : e'.resourceId = e.resourceId := by
  obtain ⟨row, hrow, rfl, hid⟩ := h
  obtain ⟨-, hvalid, hinj⟩ := msrResIdTable_rows row hrow
  unfold isMsrEntry at h'
  obtain ⟨-, hmsr⟩ : e'.resourceId ≠ resourceIdUnknown ∧ resIdToMsr e'.resourceId = row.1 := by
    simpa using h'
  unfold resIdToMsr at hmsr
  split at hmsr
  · rename_i row' hfind
    have hrow' := hinj row' (List.mem_of_find?_eq_some hfind) hmsr
    have hid' : row'.2.code = e'.resourceId := by simpa using List.find?_some hfind
    rw [← hid', hrow', hid]
  · exact absurd hmsr.symm hvalid

/-- The registers with an entry are known to the switch. -/
theorem msrSwitch_of_isAboutMsr {e : PolicyEntry} {msrId : U32} (h : e.IsAboutMsr msrId) :
    (msrSwitch (msrId.zeroExtend 64)).isSome = true := by
  obtain ⟨row, hrow, rfl, -⟩ := h
  have hall : ∀ row ∈ msrResIdTable, (msrSwitch (row.1.zeroExtend 64)).isSome = true := by decide
  exact hall row hrow

/-- The slots of the number of a row are the slots of its id. -/
theorem isMsrEntry_iff {row : U32 × ResourceId} (hrow : row ∈ msrResIdTable) (e : PolicyEntry) :
    isMsrEntry row.1 e = true ↔ e.resourceId = row.2.code := by
  refine ⟨fun h => ?_, fun hid => PolicyEntry.IsAboutMsr.isMsrEntry ⟨row, hrow, rfl, hid.symm⟩⟩
  have habout : PolicyEntry.IsAboutMsr ⟨row.2.code, 0, 0, 0, 0, 0, 0, ⟨0, 0, 0⟩⟩ row.1 :=
    ⟨row, hrow, rfl, rfl⟩
  exact resourceId_of_isMsrEntry habout h

/-- If the policy's decision is ALLOW, the write is permitted. -/
theorem msrWritePermitted_of_filteredMsr {s : HandlerState}
    (hd : Distinct PolicyEntry.resourceId resourceIdUnknown s.slots) (ev : EventInfo)
    {msrId : U32} {value : U64} (h : (filteredMsr ev msrId value s).response = .allow) :
    MsrWritePermitted s.slots msrId value := by
  intro e he habout
  have hfind : s.slots.find? (isMsrEntry msrId) = some e := by
    have hkey : isMsrEntry msrId = fun e' => decide (e'.resourceId = e.resourceId) := by
      funext e'
      rw [Bool.eq_iff_iff, decide_eq_true_eq]
      refine ⟨resourceId_of_isMsrEntry habout, fun hid => ?_⟩
      obtain ⟨row, hrow, hmsr, hrid⟩ := habout
      exact PolicyEntry.IsAboutMsr.isMsrEntry ⟨row, hrow, hmsr, hrid.trans hid.symm⟩
    obtain ⟨row, -, -, hrid⟩ := habout
    rw [hkey]
    exact Lib.slotOf_of_mem hd he (hrid ▸ row.2.code_ne_unknown)
  unfold filteredMsr at h
  rw [hfind] at h
  simp only [msrPolicyResponse] at h
  cases hs : e.hasSticky with
  | true =>
    simp only [hs, if_true] at h ⊢
    by_contra hne
    rw [if_neg hne] at h
    cases h
  | false =>
    simp only [hs, Bool.false_eq_true, if_false] at h ⊢
    by_contra hk
    rw [Bool.not_eq_false] at hk
    rw [if_pos hk] at h
    cases h

/-! ## Allowed writes -/

variable {debug : Bool} {s : HandlerState}

/-- An allowed control register write is permitted, or a request failed and the registers are as
they were. -/
theorem allowed_crWrite (hs : Reachable debug s) (cr : GuestCr) {operandReg : IkgtCpuReg}
    {operand : VmcsReg} (ho : getIkgtVmcsGuestRegId operandReg = some operand)
    (env : Surroundings) (info : EventInfo) {s' : HandlerState}
    (hs' : s' = reportEvent debug s ⟨env, info, .cpu ⟨.reg, cr.reg.eventReg, operandReg⟩⟩)
    (hallow : s'.response = .allow) :
    CrWritePermitted cr.reg s.slots (s.cr cr) (s'.fw.reg operand) ∨
      env.FailedWithin s'.fw.requests ∧ s'.fw.reg = s.fw.reg := by
  obtain ⟨m, hm⟩ := hs.refines
  rw [reportEvent_cr hm.init] at hs'
  have hcases : CrOutcome cr.reg operand (s.entered env) s' := by
    rw [hs']
    exact handleCrEvent_cases (s := s.entered env) hm.distinct info
      ⟨.reg, cr.reg.eventReg, operandReg⟩ ho
  cases hcases with
  | redirected hr => rw [hr] at hallow; cases hallow
  | allowed hr hreg =>
    refine Or.inl ?_
    rw [hreg, Function.update_self]
    exact crWritePermitted_filteredCr hm.distinct _ _
  | failed hr hf hreg => exact Or.inr ⟨hf, hreg⟩

/-- An allowed MSR write is permitted, or a request failed and the registers are as they were. -/
theorem allowed_msrWrite (hs : Reachable debug s) (eventReg operandReg : IkgtCpuReg)
    (env : Surroundings) (info : EventInfo) (hrcx : (s.gp .rcx).toNat < 2 ^ 32)
    {s' : HandlerState}
    (hs' : s' = reportEvent debug s ⟨env, info, .cpu ⟨.msr, eventReg, operandReg⟩⟩)
    (hallow : s'.response = .allow) :
    MsrWritePermitted s.slots (low (s'.gp .rcx)) (makeU64 (s'.gp .rdx) (s'.gp .rax)) ∨
      env.FailedWithin s'.fw.requests ∧ s'.fw.reg = s.fw.reg := by
  obtain ⟨m, hm⟩ := hs.refines
  rw [reportEvent_eq hm.init] at hs'
  have hcases : MsrOutcome info (s.entered env) s' := by
    rw [hs']
    exact handleMsrEvent_cases rfl info
  have hreg : s'.fw.reg = s.fw.reg := by
    rw [hs']
    exact reg_handleMsrEvent info (s.entered env)
  have hgp : ∀ r, s'.gp r = s.gp r := fun r => congrFun hreg (.gp r)
  rw [hgp, hgp, hgp]
  cases hcases with
  | failed hv hf => exact Or.inr ⟨hf, hreg⟩
  | ignored hv hnone =>
    refine Or.inl fun e _ habout => ?_
    have hsome := msrSwitch_of_isAboutMsr habout
    rw [zeroExtend_low hrcx] at hsome
    change msrSwitch (s.gp .rcx) = none at hnone
    rw [hnone] at hsome
    cases hsome
  | filtered hok hsome hv =>
    refine Or.inl (msrWritePermitted_of_filteredMsr hm.distinct info ?_)
    have hr : s'.visible.response = .allow := hallow
    rw [hv] at hr
    exact hr

/-- **An allowed write is permitted, or a request has failed.** In a reachable state, for whatever
the framework answers: if the response to a CR0, CR4 or MSR write is ALLOW, then the policy permits
the write that takes effect, or a request made in this event failed and the registers hold what the
guest put there. -/
theorem allowed_write (hs : Reachable debug s) (env : Surroundings) (info : EventInfo) :
    (∀ (cr : GuestCr) (operandReg : IkgtCpuReg) (operand : VmcsReg),
      getIkgtVmcsGuestRegId operandReg = some operand →
        let s' := reportEvent debug s ⟨env, info, .cpu ⟨.reg, cr.reg.eventReg, operandReg⟩⟩
        s'.response = .allow →
          CrWritePermitted cr.reg s.slots (s.cr cr) (s'.fw.reg operand) ∨
            env.FailedWithin s'.fw.requests ∧ s'.fw.reg = s.fw.reg) ∧
      ((s.gp .rcx).toNat < 2 ^ 32 → ∀ eventReg operandReg : IkgtCpuReg,
        let s' := reportEvent debug s ⟨env, info, .cpu ⟨.msr, eventReg, operandReg⟩⟩
        s'.response = .allow →
          MsrWritePermitted s.slots (low (s'.gp .rcx)) (makeU64 (s'.gp .rdx) (s'.gp .rax)) ∨
            env.FailedWithin s'.fw.requests ∧ s'.fw.reg = s.fw.reg) :=
  ⟨fun cr _ _ ho => allowed_crWrite hs cr ho env info rfl,
    fun hrcx eventReg operandReg => allowed_msrWrite hs eventReg operandReg env info hrcx rfl⟩

/-- The guest writes 0x500 to EFER, which has an entry with SKIP, and the third request of the event
fails. The write is allowed, and the policy does not permit it. -/
theorem allowed_write_efer :
    let s := run (reportEvent false) (handlerInitialize (.boot
        ((Framework.atBoot.setReg (.gp .rcx) 0xC0000080).setReg (.gp .rax) 0x500)))
      [(PolicyMessage.about .policyEntryEnable .msrEfer policyActSkip 0).event]
    let env := { Surroundings.cooperative with
      outcome := fun n => if n = 2 then .error else .success }
    let s' := reportEvent false s ⟨env, ⟨1, 0, 0⟩, .cpu ⟨.msr, .unknown, .unknown⟩⟩
    s'.response = .allow ∧ env.FailedWithin s'.fw.requests ∧ s'.fw.reg = s.fw.reg := by
  intro s env s'
  have hallow : s'.response = .allow := by decide +kernel
  refine ⟨hallow, ((@allowed_write false s ⟨_, _, rfl, rfl⟩ env ⟨1, 0, 0⟩).2
    (by decide +kernel) .unknown .unknown hallow).resolve_left fun hpermitted => ?_⟩
  have hskip := hpermitted
    (policyMsgToEntry (PolicyMessage.about .policyEntryEnable .msrEfer policyActSkip 0).policyData
      0) (by decide +kernel) ⟨(0xC0000080, .msrEfer), by decide, by decide +kernel, rfl⟩
  exact absurd hskip (by decide)

/-- **A failing request allows a forbidden write.** CR0.WP is set and has an entry with SKIP; the
first allocation of the event fails; the write that clears the bit is allowed as it is. -/
theorem failed_request_allows :
    let s := run (reportEvent false)
      (handlerInitialize (.boot (Framework.atBoot.setReg .cr0 0x10000)))
      [(PolicyMessage.about .policyEntryEnable .cr0Wp policyActSkip 0).event]
    let env := { Surroundings.cooperative with
      outcome := fun n => if n = 0 then .error else .success }
    let s' := reportEvent false s ⟨env, ⟨0, 0, 0⟩, .cpu ⟨.reg, .cr0, .gp .rax⟩⟩
    s'.response = .allow ∧
      ∃ e ∈ s.slots, cr0.BitOf 16 e.resourceId ∧ e.wHasSkip = true ∧ e.hasSticky = false ∧
        (s'.fw.reg (.gp .rax)).getLsbD 16 ≠ (s.cr .cr0).getLsbD 16 :=
  ⟨by decide +kernel,
    policyMsgToEntry (PolicyMessage.about .policyEntryEnable .cr0Wp policyActSkip 0).policyData 0,
    by decide +kernel, by decide +kernel, by decide, by decide, by decide +kernel⟩

end IkgtUsage
