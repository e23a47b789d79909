import IkgtUsage.Handler.CrSpec
import IkgtUsage.Handler.Permitted

/-!
# MSR writes against their specification

A write to one of the five MSRs that the handler numbers is decided by the entry of the MSR's
resource: `MsrSpec` says how, `handleMsrEvent_spec` that the handler does so, for all tables that
events can leave, whatever ids they hold and in whatever order. Writes to all other MSRs are
allowed untouched.
-/

namespace IkgtUsage

open Framework Lib

/-- EDX:EAX. -/
def edxEax (rdx rax : U64) : U64 := low rdx ++ low rax

theorem makeU64_eq (rdx rax : U64) : makeU64 rdx rax = edxEax rdx rax := by
  unfold makeU64 edxEax
  rw [and_low_mask, and_low_mask]
  apply BitVec.eq_of_getLsbD_eq
  intro i hi
  rw [BitVec.getLsbD_append, BitVec.getLsbD_or, BitVec.getLsbD_shiftLeft,
    BitVec.zeroExtend_eq_setWidth, BitVec.zeroExtend_eq_setWidth, BitVec.getLsbD_setWidth,
    BitVec.getLsbD_setWidth]
  by_cases hlow : i < 32
  · simp [hlow, hi]
  · have hlt : i - 32 < 64 := by omega
    have hend : (low rax).getLsbD i = false := BitVec.getLsbD_of_ge _ _ (by omega)
    simp [hlow, hi, hlt, hend]

/-- What a write of `value` to the MSR with the entry `e` comes to, from `s` to `s'`. -/
structure MsrSpec (info : EventInfo) (value : U64) (e : PolicyEntry) (s s' : HandlerState) :
    Prop where
  response : s'.response =
    if (e.hasSticky = true ∧ value ≠ e.stickyVal) ∨ (e.wHasSkip = true ∧ e.hasSticky = false) then
      .redirect
    else .allow
  logged : s'.logEvents =
    if e.wHasLog = true then ⟨info.threadId, info.rip⟩ :: s.logEvents else s.logEvents
  counted : s'.slots = s.slots.map fun e' => if e' = e then e.incAccessCount else e'
  frame : PolicyFrame s s'

/-- The response to a write, in the words of the specification. -/
theorem msrPolicyResponse_eq (e : PolicyEntry) (ctx : PolicyMsrCtx) :
    msrPolicyResponse e ctx =
      if (e.hasSticky = true ∧ ctx.newValue ≠ e.stickyVal) ∨
          (e.wHasSkip = true ∧ e.hasSticky = false) then .redirect
      else .allow := by
  unfold msrPolicyResponse
  cases e.hasSticky with
  | true => by_cases hv : ctx.newValue = e.stickyVal <;> simp [hv]
  | false => cases e.wHasSkip <;> simp

/-- The slots after the event, given the table. -/
theorem slots_of_visible {s : HandlerState} {slots : List PolicyEntry}
    (hlength : slots.length = s.slots.length) {s' : HandlerState}
    (h : s'.gPolicyTable = s.gPolicyTable.map fun t => t.replaceSlots slots) :
    s'.slots = slots := by
  have hsame : s'.slots = (s.withSlots slots).slots := by
    unfold HandlerState.slots HandlerState.withSlots
    rw [h]
  rw [hsame]
  exact slots_withSlots hlength

/-- **The policy of an MSR decides.** -/
theorem filteredMsr_spec {row : U32 × ResourceId} (hrow : row ∈ msrResIdTable) {s s' : HandlerState}
    (hd : Distinct PolicyEntry.resourceId resourceIdUnknown s.slots) {info : EventInfo}
    {value : U64} (hv : s'.visible = filteredMsr info row.1 value s) (hframe : PolicyFrame s s') :
    ((∀ e ∈ s.slots, e.resourceId ≠ row.2.code) → s'.visible = s.untouched) ∧
      ∀ e ∈ s.slots, e.resourceId = row.2.code → MsrSpec info value e s s' := by
  have hkey : isMsrEntry row.1 = fun e => decide (e.resourceId = row.2.code) := by
    funext e
    rw [Bool.eq_iff_iff, decide_eq_true_eq]
    exact isMsrEntry_iff hrow e
  unfold filteredMsr at hv
  rw [hkey] at hv
  refine ⟨fun hnone => ?_, fun e he hid => ?_⟩
  · have hfind : (s.slots.find? fun e => decide (e.resourceId = row.2.code)) = none := by
      rw [List.find?_eq_none]
      simpa using hnone
    rw [hv, hfind]
  · have hfind : (s.slots.find? fun e => decide (e.resourceId = row.2.code)) = some e := by
      rw [← hid]
      exact slotOf_of_mem hd he (hid ▸ row.2.code_ne_unknown)
    rw [hfind] at hv
    simp only [HandlerState.visible, Visible.mk.injEq] at hv
    obtain ⟨hresponse, hlog, htable⟩ := hv
    refine ⟨hresponse.trans (msrPolicyResponse_eq e _), hlog, ?_, hframe⟩
    -- the first slot of the id is the only one
    have hmap : updateFirst (fun e => decide (e.resourceId = row.2.code))
        PolicyEntry.incAccessCount s.slots =
          s.slots.map fun e' => if e' = e then e.incAccessCount else e' := by
      rw [updateFirst_eq_map hd row.2.code_ne_unknown]
      refine List.map_congr_left fun e' he' => ?_
      by_cases heq : e' = e
      · rw [heq, if_pos hid, if_pos rfl]
      · rw [if_neg heq, if_neg fun hid' => heq ?_]
        have hfound := slotOf_of_mem hd he' (hid' ▸ row.2.code_ne_unknown)
        rw [hid'] at hfound
        exact Option.some_inj.mp (hfound.symm.trans hfind)
    rw [← hmap]
    refine slots_of_visible (length_updateFirst _ _ _) (htable.trans ?_)
    unfold HandlerState.slots
    cases s.gPolicyTable <;> rfl

/-- The switch knows the numbers of the rows, and no others. -/
theorem msrSwitch_isSome_iff_row (rcx : U64) :
    (msrSwitch rcx).isSome = true ↔ ∃ row ∈ msrResIdTable, rcx = row.1.zeroExtend 64 := by
  constructor
  · intro h
    by_contra hno
    simp only [msrResIdTable, List.mem_cons, List.not_mem_nil, or_false, exists_eq_or_imp,
      exists_eq_left, not_or] at hno
    obtain ⟨hefer, hcs, hesp, heip, hpat⟩ := hno
    unfold msrSwitch at h
    rw [if_neg hefer, if_neg hcs, if_neg hesp, if_neg heip, if_neg hpat] at h
    cases h
  · rintro ⟨row, hrow, rfl⟩
    exact msrSwitch_of_isAboutMsr (e := ⟨row.2.code, 0, 0, 0, 0, 0, 0, ⟨0, 0, 0⟩⟩)
      ⟨row, hrow, rfl, rfl⟩

/-- **An MSR write meets its specification.** For every reachable table and all register contents,
where the register reads succeed. If RCX is the number of a row of `msr_res_id_table`, the entry of
the row's id decides over EDX:EAX; without one, and for any other RCX, the write is allowed, not
logged, and the table is as before. -/
theorem handleMsrEvent_spec {debug : Bool} {s : HandlerState} (hs : Reachable debug s)
    {env : Surroundings} (hok : ¬ env.FailedWithin 8) (reg : VmcsReg → U64) (info : EventInfo) :
    let value := edxEax (reg (.gp .rdx)) (reg (.gp .rax))
    let before := s.atEvent env reg
    let after := handleMsrEvent info before
    (∀ row ∈ msrResIdTable, reg (.gp .rcx) = row.1.zeroExtend 64 →
      ((∀ e ∈ s.slots, e.resourceId ≠ row.2.code) → after.visible = before.untouched) ∧
        ∀ e ∈ s.slots, e.resourceId = row.2.code → MsrSpec info value e before after) ∧
    ((∀ row ∈ msrResIdTable, reg (.gp .rcx) ≠ row.1.zeroExtend 64) →
      after.visible = before.untouched) := by
  intro value before after
  obtain ⟨m, hm⟩ := hs.refines
  have hvisible : after.visible =
      if ¬ env.FailedWithin 8 ∧ (msrSwitch (reg (.gp .rcx))).isSome = true then
        filteredMsr info (low (reg (.gp .rcx))) (makeU64 (reg (.gp .rdx)) (reg (.gp .rax))) before
      else before.untouched := visible_handleMsrEvent (s := before) rfl info
  refine ⟨fun row hrow hrcx => ?_, fun hnone => ?_⟩
  · have hlow : low (reg (.gp .rcx)) = row.1 := by
      rw [hrcx]
      exact BitVec.setWidth_setWidth_of_le _ (by decide)
    rw [if_pos ⟨hok, (msrSwitch_isSome_iff_row _).mpr ⟨row, hrow, hrcx⟩⟩, hlow, makeU64_eq]
      at hvisible
    exact filteredMsr_spec hrow (s := before) hm.distinct hvisible (.handleMsrEvent info before)
  · rw [hvisible, if_neg]
    rintro ⟨-, hsome⟩
    obtain ⟨row, hrow, hrcx⟩ := (msrSwitch_isSome_iff_row _).mp hsome
    exact hnone row hrow hrcx

/-- EFER with STICKY and LOG, among ids that stand for nothing, against a write of another value. -/
theorem handleMsrEvent_spec_efer :
    let s := run (reportEvent false) (handlerInitialize (.boot .atBoot))
      [(PolicyMessage.event ⟨CommandCode.policyEntryEnable.code, 1,
          ⟨100, 0, 2, 0, 0, ⟨0, 0, 0⟩⟩⟩),
        (PolicyMessage.about .policyEntryEnable .msrEfer 0x81 7).event]
    let reg := Function.update (fun _ => 0) (VmcsReg.gp .rcx) (0xC0000080 : U64)
    let before := s.atEvent .cooperative reg
    let after := handleMsrEvent ⟨0, 0, 0⟩ before
    (∃ e ∈ s.slots, e.resourceId = ResourceId.msrEfer.code) ∧
      ∀ e ∈ s.slots, e.resourceId = ResourceId.msrEfer.code →
        MsrSpec ⟨0, 0, 0⟩ (edxEax (reg (.gp .rdx)) (reg (.gp .rax))) e before after := by
  intro s reg before after
  refine ⟨by decide +kernel, ?_⟩
  exact ((@handleMsrEvent_spec false s ⟨_, _, rfl, rfl⟩ .cooperative
    (fun ⟨_, _, h⟩ => h rfl) reg ⟨0, 0, 0⟩).1 (ia32MsrEfer, .msrEfer) List.mem_cons_self rfl).2

end IkgtUsage
