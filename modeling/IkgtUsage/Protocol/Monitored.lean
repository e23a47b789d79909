import IkgtUsage.Handler.GuestCr
import IkgtUsage.Protocol.Enforced

/-!
# The table and what is monitored

The handler keeps the policy in its slots and asks the framework to monitor the bits; it goes by the
`resource_id` of a message for the one and by the mask in its `resource_info` for the other. A
message built by the driver has both from one row of a table, and the driver's tables agree with the
handler's (`bitOf_iff_concerns`). So as long as the driver builds the messages and nothing fails, a
control register bit is monitored exactly while its resource has an entry (`monitored_iff`).
-/

namespace IkgtUsage

open Lib Framework

/-! ## The messages -/

/-- The message is one that `policy_set_cr0` or `policy_set_cr4` builds for some item, or a
MAKE_IMMUTABLE message. -/
def BuiltByDriver (msg : PolicyMessage) : Prop :=
  (∃ answers cfg enable, (policySetCr0 answers cfg enable).1 = some msg) ∨
    (∃ answers cfg enable, (policySetCr4 answers cfg enable).1 = some msg) ∨
    msg.command = CommandCode.policyMakeImmutable.code

/-- The event of such a message, where nothing fails. -/
structure DriverEvent (e : Event) : Prop where
  data : ∃ msg, e.data = .msg msg ∧ BuiltByDriver msg
  ok : ∀ n, e.env.outcome n = .success

/-- What `policy_set_crx` builds is the message about an item. -/
theorem policySet_sent {k : CfgKind} {answers : Answers} {cfg : Cfg k} {enable : Bool}
    {msg : PolicyMessage} (h : (policySet answers cfg enable).1 = some msg) :
    msg = policyMessage cfg cfg.row enable := by
  rw [policySet_eq] at h
  split at h
  · exact (Option.some_inj.mp h).symm
  · cases h

/-- The messages by kind: about an item of a control register, or MAKE_IMMUTABLE. -/
theorem BuiltByDriver.cases {msg : PolicyMessage} (h : BuiltByDriver msg) :
    (∃ (item : Item) (enable : Bool), item.group ≠ .msr ∧
      msg = policyMessage item.cfg item.cfg.row enable) ∨
    msg.command = CommandCode.policyMakeImmutable.code := by
  rcases h with ⟨answers, cfg, enable, hsent⟩ | ⟨answers, cfg, enable, hsent⟩ | himm
  · exact Or.inl ⟨⟨.cr0, cfg⟩, enable, CfgGroup.noConfusion, policySet_sent hsent⟩
  · exact Or.inl ⟨⟨.cr4, cfg⟩, enable, CfgGroup.noConfusion, policySet_sent hsent⟩
  · exact Or.inr himm

/-! ## The tables agree on the bits -/

/-- The handler's mask of a row of the driver's table. -/
theorem resIdToMask_row (cr : GuestCr) (g : CfgGroup) : g ≠ .msr →
    ∀ row ∈ g.kind.table, cr.reg.resIdToMask row.resId.code =
      match g, cr with
      | .cr0, .cr0 | .cr4, .cr4 => row.value
      | _, _ => 0 := by
  cases g <;> cases cr <;> decide

/-- **The tables agree on the bits**: a row of the driver stands for the bits whose resource it
names. -/
theorem bitOf_iff_concerns (cr : GuestCr) {g : CfgGroup} (hg : g ≠ .msr) {row : NameValueMap}
    (hrow : row ∈ g.kind.table) {cpu : Nat} (hcpu : cpu < 128) (b : Nat) :
    cr.reg.BitOf b row.resId.code ↔ g.concerns row (.crBit cr.reg.eventReg cpu b) = true := by
  have hmask := resIdToMask_row cr g hg row hrow
  unfold ControlReg.BitOf
  rw [hmask]
  cases g with
  | cr0 =>
    cases cr with
    | cr0 => simp [CfgGroup.concerns, GuestCr.reg, cr0, hcpu]
    | cr4 => simp [CfgGroup.concerns, GuestCr.reg, cr4]
  | cr4 =>
    cases cr with
    | cr0 => simp [CfgGroup.concerns, GuestCr.reg, cr0]
    | cr4 => simp [CfgGroup.concerns, GuestCr.reg, cr4, hcpu]
  | msr => exact absurd rfl hg

/-- The driver names the CPUs of its two bitmap words, and no others. -/
theorem concerns_of_cpu {g : CfgGroup} {row : NameValueMap} {reg : IkgtCpuReg} {cpu b : Nat}
    (h : g.concerns row (.crBit reg cpu b) = true) : cpu < 128 := by
  cases g with
  | cr0 => exact (of_decide_eq_true h).2.1
  | cr4 => exact (of_decide_eq_true h).2.1
  | msr => cases h

/-! ## The invariant -/

/-- **The invariant**: the handler holds the policy `m`, whose ids are resources, and exactly the
bits of its ids are monitored, on the CPUs of the bitmap. -/
structure MonitorInv (s : HandlerState) (m : PolicyMap) : Prop where
  refines : Refines s m
  ids : ∀ id ∈ m.map, ∃ r : ResourceId, r.code = id
  agrees : ∀ (cr : GuestCr) (cpu b : Nat), s.fw.watches (.crBit cr.reg.eventReg cpu b) = true ↔
    cpu < 128 ∧ ∃ id ∈ m.map, cr.reg.BitOf b id

namespace MonitorInv

variable {s s' : HandlerState} {m : PolicyMap}

theorem init {fw : Framework} (halloc : fw.nextOutcome = .success)
    (hnone : ∀ w, fw.watches w = false) : MonitorInv (handlerInitialize (.boot fw)) .empty := by
  have hfw : (handlerInitialize (.boot fw)).fw = fw.tick := by
    simp [handlerInitialize, policyInitialize, HandlerState.boot, ikgtMalloc, halloc]
  refine ⟨.handlerInitialize halloc, fun id hid => (Finmap.notMem_empty hid).elim,
    fun cr cpu b => ?_⟩
  have hwatches : fw.tick.watches (.crBit cr.reg.eventReg cpu b) = false := hnone _
  rw [hfw, hwatches]
  refine ⟨Bool.noConfusion, ?_⟩
  rintro ⟨-, id, hid, -⟩
  exact (Finmap.notMem_empty hid).elim

/-- A frame step. -/
theorem frame (h : MonitorInv s m) (hf : PolicyFrame s s') : MonitorInv s' m :=
  ⟨h.refines.frame hf, h.ids, fun cr cpu b => by rw [hf.watches]; exact h.agrees cr cpu b⟩

/-- The bits in the policy after a message about an item. -/
theorem bits_policyAfter {map : Finmap fun _ : U32 => Policy} {k : CfgKind} (cfg : Cfg k)
    (enable : Bool) (cr : GuestCr) (b : Nat) :
    (∃ id ∈ policyAfter map cfg enable, cr.reg.BitOf b id) ↔
      if cr.reg.BitOf b cfg.row.resId.code then enable = true
      else ∃ id ∈ map, cr.reg.BitOf b id := by
  split
  · -- the bit is the item's: no other id has it
    rename_i hbit
    cases enable with
    | true => exact iff_of_true ⟨_, Finmap.mem_insert.mpr (Or.inl rfl), hbit⟩ rfl
    | false =>
      refine iff_of_false ?_ Bool.false_ne_true
      rintro ⟨id, hid, hbit'⟩
      exact (Finmap.mem_erase.mp hid).1 (hbit'.unique hbit)
  · rename_i hbit
    refine exists_congr fun id => and_congr_left fun hbit' => ?_
    have hne : id ≠ cfg.row.resId.code := fun heq => hbit (heq ▸ hbit')
    cases enable with
    | true => exact Finmap.mem_insert.trans (or_iff_right hne)
    | false => exact Finmap.mem_erase.trans (and_iff_right hne)

/-- A message about an item, to a handler that is not immutable. -/
theorem settings {map : Finmap fun _ : U32 => Policy} (h : MonitorInv s ⟨map, false⟩)
    (debug : Bool) {env : Surroundings} (hok : ∀ n, env.outcome n = .success) (info : EventInfo)
    {item : Item} (hg : item.group ≠ .msr) (enable : Bool) :
    MonitorInv
      (reportEvent debug s ⟨env, info, .msg (policyMessage item.cfg item.cfg.row enable)⟩)
      ⟨policyAfter map item.cfg enable, false⟩ := by
  obtain ⟨hrefines, hwatches⟩ :=
    reportEvent_policyMessage debug h.refines hok info item enable
  rw [receive_policyCommandOf h.ids] at hrefines
  refine ⟨hrefines, ids_policyAfter h.ids item.cfg enable, fun cr cpu b => ?_⟩
  have hstar : item.resource.isStar = false := by
    obtain ⟨g, cfg⟩ := item
    cases g with
    | cr0 => exact crBits_not_star _ (List.mem_append_left _ cfg.row_mem)
    | cr4 => exact crBits_not_star _ (List.mem_append_right _ cfg.row_mem)
    | msr => exact absurd rfl hg
  rw [hwatches, bits_policyAfter]
  by_cases hcpu : cpu < 128
  · have hiff := bitOf_iff_concerns cr hg item.cfg.row_mem hcpu b
    by_cases hbit : item.group.concerns item.cfg.row (.crBit cr.reg.eventReg cpu b) = true
    · rw [if_pos ⟨hstar, hbit⟩, if_pos (hiff.mpr hbit), and_iff_right hcpu]
    · rw [if_neg fun hboth => hbit hboth.2, if_neg (mt hiff.mp hbit)]
      exact h.agrees cr cpu b
  · rw [if_neg fun hboth => hcpu (concerns_of_cpu hboth.2), h.agrees]
    exact iff_of_false (fun hboth => hcpu hboth.1) (fun hboth => hcpu hboth.1)

/-- A MAKE_IMMUTABLE message. -/
theorem makeImmutable (h : MonitorInv s m) (debug : Bool) {e : Event} {msg : PolicyMessage}
    (hdata : e.data = .msg msg) (hcommand : msg.command = CommandCode.policyMakeImmutable.code) :
    ∃ m', MonitorInv (reportEvent debug s e) m' := by
  rcases reportEvent_cases debug s e with ⟨c, hc, -, himm, heq⟩ | ⟨-, hframe⟩
  · have hmake : c = .makeImmutable := by
      unfold Event.policyCommand at hc
      rw [hdata] at hc
      simp only at hc
      split at hc
      · unfold PolicyMessage.policyCommand at hc
        rw [hcommand, if_neg (by decide), if_neg (by decide), if_pos rfl] at hc
        exact (Option.some_inj.mp hc).symm
      · cases hc
    subst hmake
    rw [heq]
    have hreceived : MonitorInv (s.received e) m := h.frame ⟨rfl, rfl, rfl, rfl, rfl⟩
    have hunfrozen : m.immutable = false := h.refines.immutable.symm.trans himm
    refine ⟨m.receive .makeImmutable, hreceived.refines.apply hunfrozen .makeImmutable, ?_, ?_⟩
    · unfold PolicyMap.receive
      rw [hunfrozen]
      exact h.ids
    · unfold PolicyMap.receive
      rw [hunfrozen]
      exact hreceived.agrees
  · exact ⟨m, h.frame hframe⟩

/-- **One message of the driver.** -/
theorem step (h : MonitorInv s m) (debug : Bool) {e : Event} (he : DriverEvent e) :
    ∃ m', MonitorInv (reportEvent debug s e) m' := by
  obtain ⟨⟨msg, hdata, hbuilt⟩, hok⟩ := he
  rcases hbuilt.cases with ⟨item, enable, hg, rfl⟩ | hcommand
  · cases himm : m.immutable with
    | true =>
      have hframe : PolicyFrame s (reportEvent debug s e) :=
        immutable_frame debug (h.refines.immutable.trans himm) [e]
      exact ⟨m, h.frame hframe⟩
    | false =>
      obtain ⟨map, immutable⟩ := m
      obtain ⟨env, info, data⟩ := e
      subst himm hdata
      exact ⟨_, h.settings debug hok info hg enable⟩
  · exact h.makeImmutable debug hdata hcommand

end MonitorInv

/-! ## Runs -/

/-- **A bit is monitored exactly while its resource has an entry.** After any messages that the
driver builds for CR0 and CR4 items, and MAKE_IMMUTABLE messages, where nothing fails and nothing
was monitored at first: bit `b` of CR0 or CR4 is monitored, on each of the 128 CPUs of the bitmap
and on no other, if and only if the table has an entry for the resource of the bit. -/
theorem monitored_iff (debug : Bool) {fw : Framework} (halloc : fw.nextOutcome = .success)
    (hnone : ∀ w, fw.watches w = false) {events : List Event}
    (hevents : ∀ e ∈ events, DriverEvent e) :
    let s := run (reportEvent debug) (handlerInitialize (.boot fw)) events
    ∀ (cr : GuestCr) (cpu b : Nat), s.fw.watches (.crBit cr.reg.eventReg cpu b) = true ↔
      cpu < 128 ∧ ∃ e ∈ s.slots, cr.reg.BitOf b e.resourceId := by
  intro s cr cpu b
  have hinv : ∃ m,
      MonitorInv (run (reportEvent debug) (handlerInitialize (.boot fw)) events) m := by
    refine run_inv_of_forall (fun s => ∃ m, MonitorInv s m) (fun _ _ h he => ?_) events
      ⟨_, .init halloc hnone⟩ hevents
    obtain ⟨_, h⟩ := h
    exact h.step debug he
  obtain ⟨m, h⟩ := hinv
  obtain ⟨t, ht, -, hmap⟩ := h.refines.table
  have hslots : s.slots = t.policyEntry := by simp [HandlerState.slots, s, ht]
  rw [hslots, h.agrees]
  refine and_congr_right fun _ => ?_
  -- an id of the map is the id of a slot
  have hmem : ∀ id, id ∈ m.map ↔
      id ≠ resourceIdUnknown ∧ ∃ e ∈ t.policyEntry, e.resourceId = id := by
    intro id
    rw [← hmap, PolicyTable.toMap, mem_toMap, mem_usedKeys]
  constructor
  · rintro ⟨id, hid, hbit⟩
    obtain ⟨-, e, he, rfl⟩ := (hmem id).mp hid
    exact ⟨e, he, hbit⟩
  · rintro ⟨e, he, hbit⟩
    exact ⟨e.resourceId, (hmem _).mpr ⟨hbit.ne_unknown, e, he, rfl⟩, hbit⟩

/-- The item `WP` of CR0, with SKIP. -/
def skipWp : Cfg cr0Kind := ⟨⟨"WP".toList, by decide⟩, false, false, 2, 0⟩

/-- The item `PAE` of CR4, with LOG. -/
def logPae : Cfg cr4Kind := ⟨⟨"PAE".toList, by decide⟩, false, false, 1, 0⟩

/-- CR0.WP and CR4.PAE are enabled by the driver's messages, WP once more, and PAE is disabled. Then
WP has an entry and is monitored, and PAE has none. -/
theorem monitored_iff_wp :
    let wp := PolicyMessage.event (policyMessage skipWp skipWp.row true)
    let pae := fun enable => PolicyMessage.event (policyMessage logPae logPae.row enable)
    let s := run (reportEvent false) (handlerInitialize (.boot .atBoot))
      [wp, pae true, wp, pae false]
    (s.slots.filter (·.resourceId ≠ resourceIdUnknown)).map (·.resourceId) =
        [ResourceId.cr0Wp.code] ∧
      ∀ (cr : GuestCr) (cpu b : Nat), s.fw.watches (.crBit cr.reg.eventReg cpu b) = true ↔
        cpu < 128 ∧ ∃ e ∈ s.slots, cr.reg.BitOf b e.resourceId := by
  intro wp pae s
  have hwp : DriverEvent wp :=
    ⟨⟨_, rfl, Or.inl ⟨⟨true, true⟩, skipWp, true, rfl⟩⟩, fun _ => rfl⟩
  have hpae : ∀ enable, DriverEvent (pae enable) := fun enable =>
    ⟨⟨_, rfl, Or.inr (Or.inl ⟨⟨true, true⟩, logPae, enable, rfl⟩)⟩, fun _ => rfl⟩
  refine ⟨by decide +kernel, @monitored_iff false .atBoot rfl (fun _ => rfl) _ ?_⟩
  exact List.forall_mem_cons.mpr ⟨hwp, List.forall_mem_cons.mpr ⟨hpae true,
    List.forall_mem_cons.mpr ⟨hwp, List.forall_mem_singleton.mpr (hpae false)⟩⟩⟩

end IkgtUsage
