import IkgtUsage.Handler.Room

/-!
# Whether a policy message is all or nothing

`policy_msg_add` changes the table and then asks the framework to monitor the resource; it returns
the answer and undoes nothing. `policy_entry_add` returns nothing, so a full table goes unreported.
`policy_msg_del` asks first, but changes the table whatever the answer.

The status is that of the monitoring request (`policySetMonitor_success_iff`), and each table
function has an exact condition for leaving the table as it is (`policyEntryAdd_eq_self_iff`,
`policyEntryDel_eq_self_iff`). Together they say when a message is all or nothing
(`all_or_nothing_iff`).
-/

namespace IkgtUsage

open Framework Lib

/-! ## The monitoring request -/

/-- The handler has a way to monitor the resource. -/
def Monitorable (id : U32) : Prop :=
  (ResourceId.cr0Pe.code ≤ id ∧ id ≤ ResourceId.cr0Pg.code) ∨
    (ResourceId.cr4Vme.code ≤ id ∧ id ≤ ResourceId.cr4Smap.code) ∨ resIdToMsr id ≠ ia32MsrInvalid

instance (id : U32) : Decidable (Monitorable id) := by unfold Monitorable; infer_instance

/-- The next two requests succeed: the parameter block is allocated and the service done. -/
def Framework.NextTwoSucceed (fw : Framework) : Prop :=
  fw.nextOutcome = .success ∧ fw.tick.nextOutcome = .success

instance (fw : Framework) : Decidable fw.NextTwoSucceed := by
  unfold NextTwoSucceed; infer_instance

theorem utilMonitorCpuEvents_success_iff (cpuBitmap0 cpuBitmap1 mask : U64) (reg : IkgtCpuReg)
    (enable : Bool) (fw : Framework) :
    (utilMonitorCpuEvents cpuBitmap0 cpuBitmap1 mask reg enable fw).1 = .success ↔
      fw.NextTwoSucceed := by
  unfold utilMonitorCpuEvents NextTwoSucceed
  by_cases hmalloc : fw.nextOutcome = .success
  · simp [ikgtMalloc, callService, hmalloc]
  · simp [ikgtMalloc, hmalloc]

theorem utilMonitorMsr_success_iff (msrId : U32) (enable : Bool) (fw : Framework) :
    (utilMonitorMsr msrId enable fw).1 = .success ↔ fw.NextTwoSucceed := by
  unfold utilMonitorMsr NextTwoSucceed
  by_cases hmalloc : fw.nextOutcome = .success
  · simp [ikgtMalloc, callService, hmalloc]
  · simp [ikgtMalloc, hmalloc]

/-- **When `policy_set_monitor` succeeds.** -/
theorem policySetMonitor_success_iff (entry : PolicyEntry) (enable : Bool) (fw : Framework) :
    (policySetMonitor entry enable fw).1 = .success ↔
      Monitorable entry.resourceId ∧ fw.NextTwoSucceed := by
  unfold policySetMonitor Monitorable PolicyEntry.isCr0Entry PolicyEntry.isCr4Entry
  by_cases hcr0 : ResourceId.cr0Pe.code ≤ entry.resourceId ∧
      entry.resourceId ≤ ResourceId.cr0Pg.code
  · rw [if_pos (decide_eq_true hcr0), policyMonitorCpuEvents, utilMonitorCpuEvents_success_iff]
    simp [hcr0]
  rw [if_neg (by simpa using hcr0)]
  by_cases hcr4 : ResourceId.cr4Vme.code ≤ entry.resourceId ∧
      entry.resourceId ≤ ResourceId.cr4Smap.code
  · rw [if_pos (decide_eq_true hcr4), policyMonitorCpuEvents, utilMonitorCpuEvents_success_iff]
    simp [hcr4]
  rw [if_neg (by simpa using hcr4)]
  by_cases hmsr : resIdToMsr entry.resourceId = ia32MsrInvalid
  · simp [hcr0, hcr4, hmsr]
  · rw [if_pos hmsr, policyMonitorMsr, utilMonitorMsr_success_iff]
    simp [hmsr]

/-! ## When the table stays as it is -/

/-- The slot of the id, if it has one. -/
def PolicyTable.entryOf (t : PolicyTable) (id : U32) : Option PolicyEntry :=
  slotOf PolicyEntry.resourceId id t.policyEntry

/-- Adding an entry leaves the table as it is exactly when there is no room for it, or it is
there. -/
theorem policyEntryAdd_eq_self_iff (t : PolicyTable) {entry : PolicyEntry}
    (hid : entry.resourceId ≠ resourceIdUnknown) :
    policyEntryAdd t entry = t ↔
      ¬ Room PolicyEntry.resourceId resourceIdUnknown entry.resourceId t.policyEntry ∨
        t.entryOf entry.resourceId = some entry := by
  constructor
  · intro h
    by_cases hroom : Room PolicyEntry.resourceId resourceIdUnknown entry.resourceId t.policyEntry
    · refine Or.inr ?_
      unfold PolicyTable.entryOf
      rw [← slotOf_put_self hroom, ← slots_policyEntryAdd, h]
    · exact Or.inl hroom
  · rintro (hfull | hthere)
    · have habsent : ¬ t.policyEntry.any (fun e => e.resourceId = entry.resourceId) = true :=
        fun hany => hfull (Or.inl ((any_resourceId_iff hid).mp hany))
      have hused : ¬ t.policyEntry.any (fun e => e.resourceId = resourceIdUnknown) = true :=
        fun hany => hfull (Or.inr (any_free_iff.mp hany))
      unfold policyEntryAdd
      rw [if_neg habsent, if_neg hused]
    · have hany : t.policyEntry.any (fun e => e.resourceId = entry.resourceId) = true :=
        List.any_eq_true.mpr ⟨entry, mem_of_slotOf hthere, decide_eq_true rfl⟩
      have hscan := updateFirst_const_of_find? hthere
      unfold policyEntryAdd
      rw [if_pos hany]
      unfold PolicyTable.withSlots
      cases t
      simpa using hscan

/-- Deleting an entry leaves the table as it is exactly when no slot has its id. -/
theorem policyEntryDel_eq_self_iff {t : PolicyTable} (h : TableInv t) {entry : PolicyEntry}
    (hid : entry.resourceId ≠ resourceIdUnknown) :
    policyEntryDel t entry = t ↔ t.entryOf entry.resourceId = none := by
  constructor
  · intro heq
    unfold PolicyTable.entryOf
    rw [← slotOf_release_self PolicyEntry.resourceId_markFree hid h.distinct,
      ← slots_policyEntryDel, heq]
  · intro habsent
    have hno : ¬ t.policyEntry.any (fun e => e.resourceId = entry.resourceId) = true := by
      simpa using slotOf_eq_none_iff.mp habsent
    unfold policyEntryDel
    rw [if_neg hno]

/-! ## The messages -/

/-- The table after `policy_msg_add` is that before it, if the status is an error, and has an entry
with the policy of the message, if it is success. -/
def AddAllOrNothing (msg : PolicyUpdateRec) (s : HandlerState) : Prop :=
  ((policyMsgAdd msg s).1 ≠ .success → (policyMsgAdd msg s).2.gPolicyTable = s.gPolicyTable) ∧
    ((policyMsgAdd msg s).1 = .success →
      ∃ e ∈ (policyMsgAdd msg s).2.slots, e.resourceId = msg.resourceId ∧ e.policy = msg.policy)

/-- The table after `policy_msg_del` is that before it, if the status is an error, and has no entry
for the id of the message, if it is success. -/
def DelAllOrNothing (msg : PolicyUpdateRec) (s : HandlerState) : Prop :=
  ((policyMsgDel msg s).1 ≠ .success → (policyMsgDel msg s).2.gPolicyTable = s.gPolicyTable) ∧
    ((policyMsgDel msg s).1 = .success →
      ∀ e ∈ (policyMsgDel msg s).2.slots, e.resourceId ≠ msg.resourceId)

/-- The table has exactly the entry that the message makes. -/
def HasEntryOf (s : HandlerState) (msg : PolicyUpdateRec) : Prop :=
  policyMsgToEntry msg s.fw.env.stackFlags ∈ s.slots

/-- `policy_msg_del` of a handler with a table. -/
theorem policyMsgDel_eq {s : HandlerState} {t : PolicyTable} (ht : s.gPolicyTable = some t)
    {msg : PolicyUpdateRec} (hid : msg.resourceId ≠ resourceIdUnknown) :
    policyMsgDel msg s =
      ((policySetMonitor (policyMsgToEntry msg s.fw.env.stackFlags) false s.fw).1,
        { s with
          gPolicyTable := some (policyEntryDel t (policyMsgToEntry msg s.fw.env.stackFlags))
          fw := (policySetMonitor (policyMsgToEntry msg s.fw.env.stackFlags) false s.fw).2 }) := by
  unfold policyMsgDel
  rw [ht]
  exact if_neg hid

variable {s : HandlerState} {msg : PolicyUpdateRec}

/-- Adding is all or nothing exactly when the request succeeds and there is room, or it fails and
the table stays as it is. -/
theorem addAllOrNothing_iff {m : PolicyMap} (h : Refines s m)
    (hid : msg.resourceId ≠ resourceIdUnknown) :
    AddAllOrNothing msg s ↔
      if Monitorable msg.resourceId ∧ s.fw.NextTwoSucceed then HasRoom s msg.resourceId
      else ¬ HasRoom s msg.resourceId ∨ HasEntryOf s msg := by
  obtain ⟨t, ht, hinv, -⟩ := h.table
  have hstatus := policySetMonitor_success_iff (policyMsgToEntry msg s.fw.env.stackFlags) true s.fw
  have hslots : s.slots = t.policyEntry := by simp [HandlerState.slots, ht]
  unfold AddAllOrNothing
  rw [slots_policyMsgAdd ht hid, policyMsgAdd_eq ht hid]
  simp only [ne_eq, hstatus, resourceId_policyMsgToEntry]
  split
  · rename_i hok
    simp only [hok, not_true_eq_false, false_implies, true_implies, true_and, and_self]
    exact exists_mem_put_iff (e := policyMsgToEntry msg s.fw.env.stackFlags) hid
      (p := fun e => e.policy = msg.policy) rfl
  · rename_i hfail
    simp only [hfail, not_false_eq_true, true_implies, false_implies, and_true]
    rw [ht, Option.some_inj, policyEntryAdd_eq_self_iff t hid]
    unfold HasRoom HasEntryOf
    rw [hslots]
    refine or_congr Iff.rfl ⟨mem_of_slotOf, fun hmem => ?_⟩
    exact slotOf_of_mem hinv.distinct hmem hid

/-- Deleting is all or nothing exactly when the request succeeds or there is nothing to delete. -/
theorem delAllOrNothing_iff {m : PolicyMap} (h : Refines s m)
    (hid : msg.resourceId ≠ resourceIdUnknown) :
    DelAllOrNothing msg s ↔
      (Monitorable msg.resourceId ∧ s.fw.NextTwoSucceed) ∨
        ∀ e ∈ s.slots, e.resourceId ≠ msg.resourceId := by
  obtain ⟨t, ht, hinv, -⟩ := h.table
  have hstatus := policySetMonitor_success_iff (policyMsgToEntry msg s.fw.env.stackFlags) false s.fw
  have hslots : s.slots = t.policyEntry := by simp [HandlerState.slots, ht]
  have hgone : ∀ e ∈ (policyMsgDel msg s).2.slots, e.resourceId ≠ msg.resourceId := by
    rw [policyMsgDel_eq ht hid]
    simp only [HandlerState.slots, slots_policyEntryDel]
    exact slotOf_eq_none_iff.mp
      (slotOf_release_self PolicyEntry.resourceId_markFree hid hinv.distinct)
  unfold DelAllOrNothing
  rw [and_iff_left fun _ => hgone, policyMsgDel_eq ht hid, hslots]
  simp only [ne_eq, hstatus, resourceId_policyMsgToEntry, ht, Option.some_inj]
  rw [policyEntryDel_eq_self_iff hinv hid, PolicyTable.entryOf, slotOf_eq_none_iff]
  exact or_iff_not_imp_left.symm

/-- **When a policy message is all or nothing.** For every reachable table, every message for an id
other than `RESOURCE_ID_UNKNOWN` and every state of the framework. `policy_msg_add` is: where the id
can be monitored and both requests succeed, exactly if there is room; elsewhere, exactly if there
is none or the entry is already there. `policy_msg_del` is exactly if the id can be monitored and
both requests succeed, or no slot has the id. -/
theorem all_or_nothing_iff {debug : Bool} (hs : Reachable debug s)
    (hid : msg.resourceId ≠ resourceIdUnknown) (fw : Framework) :
    (AddAllOrNothing msg { s with fw := fw } ↔
      if Monitorable msg.resourceId ∧ fw.NextTwoSucceed then HasRoom s msg.resourceId
      else ¬ HasRoom s msg.resourceId ∨ policyMsgToEntry msg fw.env.stackFlags ∈ s.slots) ∧
    (DelAllOrNothing msg { s with fw := fw } ↔
      (Monitorable msg.resourceId ∧ fw.NextTwoSucceed) ∨
        ∀ e ∈ s.slots, e.resourceId ≠ msg.resourceId) := by
  obtain ⟨m, hm⟩ := hs.refines
  have hfw : Refines { s with fw := fw } m := ⟨hm.init, hm.table, hm.immutable⟩
  exact ⟨addAllOrNothing_iff hfw hid, delAllOrNothing_iff hfw hid⟩

/-- A message with another action for EFER, which has an entry, as WP has. -/
theorem all_or_nothing_iff_efer :
    let s := run (reportEvent false) (handlerInitialize (.boot .atBoot))
      [(PolicyMessage.about .policyEntryEnable .cr0Wp policyActSkip 0).event,
        (PolicyMessage.about .policyEntryEnable .msrEfer policyActLog 0).event]
    let msg := (PolicyMessage.about .policyEntryEnable .msrEfer policyActSkip 0).policyData
    (∃ e ∈ s.slots, e.resourceId = msg.resourceId ∧ e ≠ policyMsgToEntry msg 0) ∧
      (AddAllOrNothing msg { s with fw := .atBoot } ↔
        if Monitorable msg.resourceId ∧ Framework.atBoot.NextTwoSucceed then
          HasRoom s msg.resourceId
        else ¬ HasRoom s msg.resourceId ∨ policyMsgToEntry msg 0 ∈ s.slots) ∧
      (DelAllOrNothing msg { s with fw := .atBoot } ↔
        (Monitorable msg.resourceId ∧ Framework.atBoot.NextTwoSucceed) ∨
          ∀ e ∈ s.slots, e.resourceId ≠ msg.resourceId) :=
  ⟨by decide +kernel, @all_or_nothing_iff _ _ false ⟨.atBoot, _, rfl, rfl⟩ (by decide) .atBoot⟩

/-- **An error that changes the table.** The handler has no MSR number for STAR: the message is
answered with an error, and its entry is in the table. -/
theorem error_changes_table :
    let s := handlerInitialize (.boot .atBoot)
    let msg := (PolicyMessage.about .policyEntryEnable .msrStar policyActSkip 0).policyData
    msg.resourceId ≠ resourceIdUnknown ∧ (policyMsgAdd msg s).1 ≠ .success ∧
      (policyMsgAdd msg s).2.gPolicyTable ≠ s.gPolicyTable := by
  decide +kernel

end IkgtUsage
