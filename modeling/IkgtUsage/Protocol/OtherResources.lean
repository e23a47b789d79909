import IkgtUsage.Protocol.Monitored

/-!
# What a message does to the other resources

The table goes by the `resource_id` of a message, the monitoring of a control register by the mask
and the CPU bitmaps in its `resource_info`. `policy_sanity_check` would be the place to compare the
two; it passes every message. The other entries stay as they are, and so do the other MSRs, whose
numbers the handler takes from the id. But a message about one bit of a control register speaks for
every bit of its mask.

`others_untouched_iff` says when this does no harm, in any state that ENABLE and DISABLE messages
lead to. The messages of the driver never do any (`overlapSettled_policyMessage`).
-/

namespace IkgtUsage

open Lib Framework

/-! ## Messages and resources -/

/-- The command that asks for the resource to be enabled, or disabled. -/
def updateCommand (enable : Bool) : CommandCode :=
  if enable then .policyEntryEnable else .policyEntryDisable

/-- The event brings an ENABLE or a DISABLE message with the record `msg`. -/
def Event.Brings (e : Event) (enable : Bool) (msg : PolicyUpdateRec) : Prop :=
  ∃ count, e.data = .msg ⟨(updateCommand enable).code, count, msg⟩

/-- The bit of the resource, on every CPU, or its MSR. The numbers are the driver's: its table has
all MSR resources. -/
def ResourceId.Owns (r : ResourceId) : Watch → Prop
  | .crBit reg _ bit => ∃ cr : GuestCr, cr.reg.eventReg = reg ∧ cr.reg.BitOf bit r.code
  | .msr msrId => ∃ row ∈ msrRegs, row.resId = r ∧ row.value.truncate 32 = msrId

/-- From `s` to `s'` the entry of the resource stays as it is, and what is monitored of it. -/
structure ResourceId.Untouched (r : ResourceId) (s s' : HandlerState) : Prop where
  entry : s'.entryOf r = s.entryOf r
  watches : ∀ w, r.Owns w → s'.fw.watches w = s.fw.watches w

/-- Whatever the message covers of other resources with an entry is already as it asks: monitored
if it is an ENABLE message, not monitored if it is a DISABLE message. Only a message about a bit of
the same control register covers anything. -/
def OverlapSettled (s : HandlerState) (enable : Bool) (msg : PolicyUpdateRec) : Prop :=
  ∀ (cr : GuestCr) (own : Nat), cr.reg.BitOf own msg.resourceId →
    ∀ r : ResourceId, r.code ≠ msg.resourceId → (s.entryOf r).isSome = true →
      ∀ cpu b, cr.reg.BitOf b r.code → msg.resourceInfo.mask.getLsbD b = true →
        inBitmap msg.resourceInfo.cpuMask1 msg.resourceInfo.cpuMask2 cpu = true →
          s.fw.watches (.crBit cr.reg.eventReg cpu b) = enable

/-! ## What the message asks of the framework -/

/-- An id is in the range of a register exactly if one of its bits is the resource. -/
theorem isEntry_iff_bitOf {k : ControlReg} {e : PolicyEntry} :
    k.isEntry e = true ↔ ∃ b, k.BitOf b e.resourceId := by
  constructor
  · intro h
    obtain ⟨n, -, -, hbits⟩ := ControlReg.exists_bitNo h
    exact ⟨n, (hbits n).mpr rfl⟩
  · rintro ⟨b, hb⟩
    exact hb.isEntry

/-- No id is in both ranges. -/
theorem not_isCr0Entry_of_isCr4Entry {e : PolicyEntry} (h : e.isCr4Entry = true) :
    e.isCr0Entry = false := by
  unfold PolicyEntry.isCr4Entry at h
  unfold PolicyEntry.isCr0Entry
  rw [decide_eq_true_eq] at h
  rw [decide_eq_false_iff_not]
  rintro ⟨-, hup⟩
  exact absurd (BitVec.le_trans h.1 hup) (by decide)

/-- What is asked of a bit: it must be in the mask, and the entry in the range of the register. -/
theorem about_crBit (entry : PolicyEntry) (enable : Bool) (cr : GuestCr) (cpu b : Nat) :
    ((monitorCall entry enable).bind fun call => call.about (.crBit cr.reg.eventReg cpu b)) =
      if cr.reg.isEntry entry ∧ entry.resourceInfo.mask.getLsbD b ∧
          inBitmap entry.resourceInfo.cpuMask1 entry.resourceInfo.cpuMask2 cpu then
        some enable
      else none := by
  unfold monitorCall
  by_cases hcr0 : entry.isCr0Entry = true
  · rw [if_pos hcr0]
    have hcr4 : entry.isCr4Entry = false := by
      rw [← Bool.not_eq_true]
      intro hcr4
      rw [not_isCr0Entry_of_isCr4Entry hcr4] at hcr0
      cases hcr0
    cases cr with
    | cr0 => simp [ServiceCall.about, GuestCr.reg, cr0, hcr0, and_comm]
    | cr4 => simp [ServiceCall.about, GuestCr.reg, cr4, hcr4]
  rw [if_neg hcr0]
  by_cases hcr4 : entry.isCr4Entry = true
  · rw [if_pos hcr4]
    cases cr with
    | cr0 => simp [ServiceCall.about, GuestCr.reg, cr0, hcr0]
    | cr4 => simp [ServiceCall.about, GuestCr.reg, cr4, hcr4, and_comm]
  have hno : cr.reg.isEntry entry = false := by
    rw [Bool.not_eq_true] at hcr0 hcr4
    cases cr with
    | cr0 => exact hcr0
    | cr4 => exact hcr4
  rw [if_neg hcr4]
  refine Eq.trans ?_ (if_neg fun h => Bool.false_ne_true (hno.symm.trans h.1)).symm
  split
  · rfl
  · rfl

/-- Nothing is asked of an MSR but the one the id stands for. -/
theorem about_msr {entry : PolicyEntry} {msrId : U32} (h : resIdToMsr entry.resourceId ≠ msrId)
    (enable : Bool) :
    ((monitorCall entry enable).bind fun call => call.about (.msr msrId)) = none := by
  unfold monitorCall
  split
  · rfl
  · split
    · rfl
    · split
      · exact if_neg h
      · rfl

/-- The rows of the two MSR tables agree. -/
theorem msrResIdTable_agrees : ∀ row ∈ msrResIdTable, ∀ row' ∈ msrRegs,
    row.1 = row'.value.truncate 32 → row.2 = row'.resId := by decide

/-- An id stands for the MSR of no other resource. -/
theorem resIdToMsr_ne {id : U32} {row : NameValueMap} (hrow : row ∈ msrRegs)
    (hid : row.resId.code ≠ id) : resIdToMsr id ≠ row.value.truncate 32 := by
  unfold resIdToMsr
  split
  · rename_i found hfound
    intro hvalue
    have hsame := msrResIdTable_agrees found (List.mem_of_find?_eq_some hfound) row hrow hvalue
    have hcode : found.2.code = id := by simpa using List.find?_some hfound
    exact hid (hsame ▸ hcode)
  · exact (msrRegs_range row hrow).2.1.symm

/-! ## The state after the message -/

/-- What ENABLE and DISABLE messages keep: the policy is not immutable, and a handler without a
table is not initialised. -/
structure TakesUpdates (s : HandlerState) : Prop where
  mutable : s.gPolicyImmutable = false
  table : s.gPolicyTable.isSome = s.gBInitStatus

/-- The policy command of the message. -/
def updateOf (enable : Bool) (msg : PolicyUpdateRec) : PolicyCommand :=
  if enable then .enable msg else .disable msg

theorem fw_policySetMonitor_unknown {entry : PolicyEntry}
    (hid : entry.resourceId = resourceIdUnknown) (enable : Bool) (fw : Framework) :
    (policySetMonitor entry enable fw).2 = fw := by
  unfold policySetMonitor PolicyEntry.isCr0Entry PolicyEntry.isCr4Entry
  rw [hid]
  rfl

/-- The request the command makes, and what it does to the slots. -/
theorem updateOf_apply {s : HandlerState} {t : PolicyTable} (ht : s.gPolicyTable = some t)
    (enable : Bool) (msg : PolicyUpdateRec) :
    let entry := policyMsgToEntry msg s.fw.env.stackFlags
    ((updateOf enable msg).apply s).fw = (policySetMonitor entry enable s.fw).2 ∧
      ∀ r : ResourceId, r.code ≠ msg.resourceId →
        ((updateOf enable msg).apply s).entryOf r = s.entryOf r := by
  intro entry
  have hslots : s.slots = t.policyEntry := by simp [HandlerState.slots, ht]
  by_cases hid : msg.resourceId = resourceIdUnknown
  · have hsame : (updateOf enable msg).apply s = s := by
      cases enable with
      | true => simp [updateOf, PolicyCommand.apply, policyMsgAdd, ht, hid]
      | false => simp [updateOf, PolicyCommand.apply, policyMsgDel, ht, hid]
    rw [hsame]
    exact ⟨(fw_policySetMonitor_unknown hid enable s.fw).symm, fun _ _ => rfl⟩
  unfold HandlerState.entryOf
  rw [hslots]
  cases enable with
  | true =>
    simp only [updateOf, if_true, PolicyCommand.apply, policyMsgAdd, ht, if_neg hid]
    refine ⟨rfl, fun r hr => ?_⟩
    have hne : r.code ≠ entry.resourceId := hr
    simp only [HandlerState.slots]
    rw [slots_policyEntryAdd, slotOf_put_ne hne r.code_ne_unknown]
  | false =>
    simp only [updateOf, Bool.false_eq_true, if_false, PolicyCommand.apply, policyMsgDel, ht,
      if_neg hid]
    refine ⟨rfl, fun r hr => ?_⟩
    have hne : r.code ≠ entry.resourceId := hr
    simp only [HandlerState.slots]
    rw [slots_policyEntryDel,
      slotOf_release_ne PolicyEntry.resourceId_markFree hne r.code_ne_unknown]

/-- The event: two requests until the message is there, two more for the command. -/
theorem Event.Brings.reportEvent_eq {e : Event} {enable : Bool} {msg : PolicyUpdateRec}
    (he : e.Brings enable msg) (debug : Bool) {s : HandlerState} (hs : TakesUpdates s)
    (hinit : s.gBInitStatus = true) :
    reportEvent debug s e =
      if e.env.outcome 0 = .success then
        if e.env.outcome 1 = .success then (updateOf enable msg).apply (s.received e)
        else s.received e
      else { s with response := .allow, fw := (s.fw.enter e.env).tick } := by
  obtain ⟨count, hdata⟩ := he
  rw [IkgtUsage.reportEvent_eq hinit, hdata]
  simp only
  rw [handleMsgEvent_entered, dispatchMsg_eq]
  have himm : ¬ (s.received e).gPolicyImmutable = true := by
    intro himm
    have hmutable : (s.received e).gPolicyImmutable = false := hs.mutable
    rw [hmutable] at himm
    cases himm
  have hcommand : PolicyMessage.policyCommand debug ⟨(updateCommand enable).code, count, msg⟩ =
      some (updateOf enable msg) := by cases enable <;> rfl
  have hlog : ¬ (updateCommand enable).code = CommandCode.policyInitLog.code := by
    cases enable <;> decide
  rw [if_neg hlog, hcommand]
  simp only [if_neg himm]

/-- **One message**: the other entries stay, and what it speaks for is as it asks, if no request
fails. -/
theorem Event.Brings.effect {e : Event} {enable : Bool} {msg : PolicyUpdateRec}
    (he : e.Brings enable msg) (debug : Bool) {s : HandlerState} (hs : TakesUpdates s)
    (hinit : s.gBInitStatus = true) :
    (∀ w, (reportEvent debug s e).fw.watches w =
      if e.env.FailedWithin 4 then s.fw.watches w
      else ((monitorCall (policyMsgToEntry msg e.env.stackFlags) enable).bind
        fun call => call.about w).getD (s.fw.watches w)) ∧
      ∀ r : ResourceId, r.code ≠ msg.resourceId →
        (reportEvent debug s e).entryOf r = s.entryOf r := by
  rw [he.reportEvent_eq debug hs hinit]
  by_cases h0 : e.env.outcome 0 = .success
  swap
  · rw [if_neg h0]
    exact ⟨fun w => (if_pos ⟨0, by decide, h0⟩).symm, fun _ _ => rfl⟩
  rw [if_pos h0]
  by_cases h1 : e.env.outcome 1 = .success
  swap
  · rw [if_neg h1]
    exact ⟨fun w => (if_pos ⟨1, by decide, h1⟩).symm, fun _ _ => rfl⟩
  rw [if_pos h1]
  have hisSome : s.gPolicyTable.isSome = true := hs.table.trans hinit
  obtain ⟨t, ht⟩ := Option.isSome_iff_exists.mp hisSome
  obtain ⟨hfw, hentries⟩ := updateOf_apply (s := s.received e) ht enable msg
  refine ⟨fun w => ?_, hentries⟩
  have hbefore : (s.received e).fw.watches w = s.fw.watches w := rfl
  rw [hfw, watches_policySetMonitor, hbefore]
  -- the last two requests are the parameter block and the service
  have hlast : ((s.received e).fw.nextOutcome = .success ∧
      (s.received e).fw.tick.nextOutcome = .success) ↔ ¬ e.env.FailedWithin 4 := by
    constructor
    · rintro ⟨h2, h3⟩ ⟨n, hn, hfail⟩
      obtain rfl | rfl | rfl | rfl : n = 0 ∨ n = 1 ∨ n = 2 ∨ n = 3 := by omega
      exacts [hfail h0, hfail h1, hfail h2, hfail h3]
    · intro hok
      exact ⟨by_contra fun h2 => hok ⟨2, by decide, h2⟩, by_contra fun h3 => hok ⟨3, by decide, h3⟩⟩
  by_cases hf : e.env.FailedWithin 4
  · rw [if_pos hf, if_neg fun hboth => hlast.mp hboth hf]
  · rw [if_neg hf, if_pos (hlast.mpr hf)]
    rfl

namespace TakesUpdates

variable {s s' : HandlerState} {e : Event} {enable : Bool} {msg : PolicyUpdateRec}

theorem handlerInitialize (fw : Framework) : TakesUpdates (handlerInitialize (.boot fw)) := by
  unfold IkgtUsage.handlerInitialize policyInitialize
  by_cases halloc : fw.nextOutcome = .success
  · refine ⟨?_, ?_⟩ <;> simp [HandlerState.boot, ikgtMalloc, halloc]
  · refine ⟨?_, ?_⟩ <;> simp [HandlerState.boot, ikgtMalloc, halloc]

/-- An ENABLE or a DISABLE message. -/
theorem reportEvent (h : TakesUpdates s) (debug : Bool) (he : e.Brings enable msg) :
    TakesUpdates (reportEvent debug s e) := by
  cases hinit : s.gBInitStatus with
  | false =>
    have hstop : (!s.gBInitStatus) = true := by simp [hinit]
    have heq : IkgtUsage.reportEvent debug s e = s.entered e.env := if_pos hstop
    rw [heq]
    exact ⟨h.mutable, h.table⟩
  | true =>
    rw [he.reportEvent_eq debug h hinit]
    split
    · split
      · have hisSome : s.gPolicyTable.isSome = true := h.table.trans hinit
        obtain ⟨t, ht⟩ := Option.isSome_iff_exists.mp hisSome
        have ht' : (s.received e).gPolicyTable = some t := ht
        cases enable with
        | true =>
          simp only [updateOf, if_true, PolicyCommand.apply, policyMsgAdd, ht']
          split
          · exact ⟨h.mutable, h.table⟩
          · exact ⟨h.mutable, hinit.symm⟩
        | false =>
          simp only [updateOf, Bool.false_eq_true, if_false, PolicyCommand.apply, policyMsgDel,
            ht']
          split
          · exact ⟨h.mutable, h.table⟩
          · exact ⟨h.mutable, hinit.symm⟩
      · exact ⟨h.mutable, h.table⟩
    · exact ⟨h.mutable, h.table⟩

/-- When one message leaves the other resources untouched. -/
theorem untouched_iff (h : TakesUpdates s) (debug : Bool) (he : e.Brings enable msg) :
    (∀ r : ResourceId, r.code ≠ msg.resourceId → (s.entryOf r).isSome = true →
        r.Untouched s (IkgtUsage.reportEvent debug s e)) ↔
      e.env.FailedWithin 4 ∨ OverlapSettled s enable msg := by
  cases hinit : s.gBInitStatus with
  | false =>
    -- no table, no entries
    have hnone : s.gPolicyTable = none := by
      rw [← Option.not_isSome_iff_eq_none, h.table, hinit]
      exact Bool.false_ne_true
    have hempty : ∀ r, ¬ (s.entryOf r).isSome = true := by
      intro r
      simp [HandlerState.entryOf, HandlerState.slots, hnone, slotOf]
    refine iff_of_true (fun r _ hr => (hempty r hr).elim) (Or.inr ?_)
    intro _ _ _ r _ hr
    exact (hempty r hr).elim
  | true =>
    obtain ⟨hwatches, hentries⟩ := he.effect debug h hinit
    constructor
    · intro huntouched
      by_cases hf : e.env.FailedWithin 4
      · exact Or.inl hf
      refine Or.inr fun cr own hown r hr hentry cpu b hb hmask hcpu => ?_
      have hsame := (huntouched r hr hentry).watches (.crBit cr.reg.eventReg cpu b) ⟨cr, rfl, hb⟩
      rw [hwatches, if_neg hf, about_crBit,
        if_pos ⟨isEntry_iff_bitOf.mpr ⟨own, hown⟩, hmask, hcpu⟩] at hsame
      exact hsame.symm
    · intro hok r hr hentry
      refine ⟨hentries r hr, fun w hw => ?_⟩
      rw [hwatches]
      by_cases hf : e.env.FailedWithin 4
      · exact if_pos hf
      rw [if_neg hf]
      cases w with
      | crBit reg cpu b =>
        obtain ⟨cr, rfl, hb⟩ := hw
        rw [about_crBit]
        split
        · rename_i hcovered
          obtain ⟨own, hown⟩ := isEntry_iff_bitOf.mp hcovered.1
          have hsettled := hok.resolve_left hf cr own hown r hr hentry cpu b hb
          exact (hsettled hcovered.2.1 hcovered.2.2).symm
        · rfl
      | msr msrId =>
        obtain ⟨row, hrow, rfl, rfl⟩ := hw
        rw [about_msr (resIdToMsr_ne hrow hr)]
        rfl

end TakesUpdates

/-! ## Runs -/

/-- **What a message does to the other resources.** In a state that ENABLE and DISABLE messages lead
to, one more such message leaves every other resource with an entry untouched, if and only if one of
its four requests fails or what it covers of these resources is already as it asks. -/
theorem others_untouched_iff (debug : Bool) (fw : Framework) {events : List Event}
    (hevents : ∀ e ∈ events, ∃ enable msg, e.Brings enable msg) {e : Event} {enable : Bool}
    {msg : PolicyUpdateRec} (he : e.Brings enable msg) :
    let s := run (reportEvent debug) (handlerInitialize (.boot fw)) events
    (∀ r : ResourceId, r.code ≠ msg.resourceId → (s.entryOf r).isSome = true →
        r.Untouched s (reportEvent debug s e)) ↔
      e.env.FailedWithin 4 ∨ OverlapSettled s enable msg := by
  intro s
  have hs : TakesUpdates s := by
    refine run_inv_of_forall TakesUpdates (fun s e h hbrings => ?_) events
      (.handlerInitialize fw) hevents
    obtain ⟨enable, msg, hbrings⟩ := hbrings
    exact h.reportEvent debug hbrings
  exact hs.untouched_iff debug he

/-- The record of a message about `id` with a mask, for the first CPU. -/
def maskedUpdate (id : ResourceId) (mask : U64) : PolicyUpdateRec :=
  ⟨id.code, 0, policyActSkip, 0, 0, ⟨mask, 1, 0⟩⟩

/-- The event of the message, where nothing fails. -/
def maskedEvent (enable : Bool) (id : ResourceId) (mask : U64) : Event :=
  PolicyMessage.event ⟨(updateCommand enable).code, 1, maskedUpdate id mask⟩

/-- CR0.WP is enabled, then CR0.PE. -/
theorem others_untouched_iff_pe :
    let s := run (reportEvent false) (handlerInitialize (.boot .atBoot))
      [maskedEvent true .cr0Wp 0x10000]
    let e := maskedEvent true .cr0Pe 1
    (∀ r : ResourceId, r.code ≠ ResourceId.cr0Pe.code → (s.entryOf r).isSome = true →
        r.Untouched s (reportEvent false s e)) ↔
      e.env.FailedWithin 4 ∨ OverlapSettled s true (maskedUpdate .cr0Pe 1) := by
  intro s e
  have hwp : (maskedEvent true .cr0Wp 0x10000).Brings true (maskedUpdate .cr0Wp 0x10000) :=
    ⟨1, rfl⟩
  have hevents : ∀ e' ∈ [maskedEvent true .cr0Wp 0x10000], ∃ enable msg, e'.Brings enable msg := by
    intro e' he'
    rw [List.mem_singleton.mp he']
    exact ⟨true, _, hwp⟩
  have he : e.Brings true (maskedUpdate .cr0Pe 1) := ⟨1, rfl⟩
  exact others_untouched_iff false .atBoot hevents he

/-- **A message about one bit stops the monitoring of another.** CR0.WP is enabled; a DISABLE
message for CR0.PE whose mask is the bit WP leaves its entry, but it is no longer monitored. -/
theorem other_bit_unmonitored :
    let s := run (reportEvent false) (handlerInitialize (.boot .atBoot))
      [maskedEvent true .cr0Wp 0x10000]
    let e := maskedEvent false .cr0Pe 0x10000
    e.Brings false (maskedUpdate .cr0Pe 0x10000) ∧ (s.entryOf .cr0Wp).isSome = true ∧
      ¬ ResourceId.cr0Wp.Untouched s (reportEvent false s e) := by
  refine ⟨⟨1, rfl⟩, by decide +kernel, fun h => ?_⟩
  have hsame := h.watches (.crBit .cr0 0 16) ⟨.cr0, rfl, by decide⟩
  exact absurd hsame (by decide +kernel)

/-- **The messages of the driver do no harm**: the mask of an item is its own bit. -/
theorem overlapSettled_policyMessage (s : HandlerState) (item : Item) (enable : Bool) :
    OverlapSettled s enable (policyMessage item.cfg item.cfg.row enable).policyData := by
  obtain ⟨g, cfg⟩ := item
  intro cr own hown r hr _ cpu b hb hmask _
  have hbit : cr.reg.BitOf b cfg.row.resId.code := by
    change cr.reg.BitOf own cfg.row.resId.code at hown
    unfold ControlReg.BitOf at hown ⊢
    cases g with
    | cr0 =>
      rw [resIdToMask_row cr .cr0 (by decide) cfg.row cfg.row_mem] at hown ⊢
      cases cr with
      | cr0 => exact hmask
      | cr4 => simp at hown
    | cr4 =>
      rw [resIdToMask_row cr .cr4 (by decide) cfg.row cfg.row_mem] at hown ⊢
      cases cr with
      | cr0 => simp at hown
      | cr4 => exact hmask
    | msr =>
      -- the resource of an MSR item has no bit
      have hmask0 : ∀ row ∈ msrRegs, cr.reg.resIdToMask row.resId.code = 0 := by
        cases cr <;> decide
      rw [hmask0 cfg.row cfg.row_mem] at hown
      simp at hown
  exact absurd (hb.unique hbit) hr

end IkgtUsage
