import IkgtUsage.Driver.CfgEffect
import IkgtUsage.Handler.Monitor
import IkgtUsage.Handler.Room

/-!
# What the driver reports as enabled

Driver and handler as one system: every message the driver sends is an event of the handler. The
handler never tells the driver whether it could do what it was asked, so what the driver reports
rests on separately written tables. They agree (`about_monitorCall`) but for `STAR` and `LSTAR`,
which the handler has no MSR number for.

An item is settled while its `write` and `sticky_value` were not stored to since its last store to
`enable`. A settled item that is enabled is enforced by the handler (`enabled_enforced`), where no
item of `STAR` or `LSTAR` is enabled and items of one resource do not overrule each other
(`SendsAgree`); otherwise it may not be (`star_not_monitored`).
-/

namespace IkgtUsage

open Lib Framework

/-! ## The tables agree -/

/-- The MSRs the handler has no number for. -/
def ResourceId.isStar (r : ResourceId) : Bool := r = .msrStar ∨ r = .msrLstar

/-- The bits of a register on every CPU, or the MSR, that a row of the driver stands for. -/
def CfgGroup.concerns : CfgGroup → NameValueMap → Watch → Bool
  | cr0, row, .crBit reg cpu bit => .cr0 = reg ∧ cpu < 128 ∧ row.value.getLsbD bit
  | cr4, row, .crBit reg cpu bit => .cr4 = reg ∧ cpu < 128 ∧ row.value.getLsbD bit
  | msr, row, .msr msrId => row.value.truncate 32 = msrId
  | _, _, _ => false

theorem inBitmap_allOnes (cpu : Nat) :
    inBitmap (.allOnes 64) (.allOnes 64) cpu = decide (cpu < 128) := by
  unfold inBitmap
  by_cases hlow : cpu < 64
  · rw [if_pos hlow, BitVec.getLsbD_allOnes, decide_eq_decide]
    omega
  · rw [if_neg hlow, BitVec.getLsbD_allOnes, decide_eq_decide]
    omega

theorem cr0Bits_range : ∀ row ∈ cr0Bits, ResourceId.cr0Pe.code ≤ row.resId.code ∧
    row.resId.code ≤ ResourceId.cr0Pg.code := by decide

theorem cr4Bits_range : ∀ row ∈ cr4Bits, ¬ row.resId.code ≤ ResourceId.cr0Pg.code ∧
    ResourceId.cr4Vme.code ≤ row.resId.code ∧ row.resId.code ≤ ResourceId.cr4Smap.code := by
  decide

theorem msrRegs_range : ∀ row ∈ msrRegs, ¬ row.resId.code ≤ ResourceId.cr4Smap.code ∧
    row.value.truncate 32 ≠ ia32MsrInvalid ∧
    resIdToMsr row.resId.code =
      if row.resId.isStar then ia32MsrInvalid else row.value.truncate 32 := by
  decide

theorem crBits_not_star : ∀ row ∈ cr0Bits ++ cr4Bits, row.resId.isStar = false := by decide

/-- **The tables agree**: for an entry that a message about `row` makes, the handler asks for
exactly what the row stands for, unless it has no MSR number. -/
theorem about_monitorCall {g : CfgGroup} {row : NameValueMap} (hrow : row ∈ g.kind.table)
    {entry : PolicyEntry} (hid : entry.resourceId = row.resId.code)
    (hinfo : entry.resourceInfo = g.kind.resourceInfo row) (enable : Bool) (w : Watch) :
    ((monitorCall entry enable).bind fun call => call.about w) =
      if row.resId.isStar = false ∧ g.concerns row w = true then some enable else none := by
  unfold monitorCall PolicyEntry.isCr0Entry PolicyEntry.isCr4Entry
  rw [hid, hinfo]
  cases g with
  | cr0 =>
    have hstar := crBits_not_star row (List.mem_append_left _ hrow)
    rw [if_pos (by simpa using cr0Bits_range row hrow)]
    cases w with
    | crBit reg cpu bit =>
      simp only [Option.bind_some, ServiceCall.about, CfgGroup.concerns, hstar, CfgGroup.kind,
        cr0Kind, inBitmap_allOnes, decide_eq_true_eq, true_and]
    | msr => simp [ServiceCall.about, CfgGroup.concerns]
  | cr4 =>
    have hstar := crBits_not_star row (List.mem_append_right _ hrow)
    obtain ⟨hcr0, hlow, hhigh⟩ := cr4Bits_range row hrow
    rw [if_neg (by simp [hcr0]), if_pos (by simp [hlow, hhigh])]
    cases w with
    | crBit reg cpu bit =>
      simp only [Option.bind_some, ServiceCall.about, CfgGroup.concerns, hstar, CfgGroup.kind,
        cr4Kind, inBitmap_allOnes, decide_eq_true_eq, true_and]
    | msr => simp [ServiceCall.about, CfgGroup.concerns]
  | msr =>
    obtain ⟨hcr4, hvalid, hmsr⟩ := msrRegs_range row hrow
    have hcr0 : ¬ row.resId.code ≤ ResourceId.cr0Pg.code := fun h =>
      hcr4 (BitVec.le_trans h (by decide))
    rw [if_neg (by simp [hcr0]), if_neg (by simp [hcr4]), hmsr]
    cases hstar : row.resId.isStar with
    | true => simp
    | false =>
      cases w with
      | crBit => simp [ServiceCall.about, CfgGroup.concerns, hvalid]
      | msr msrId => simp [ServiceCall.about, CfgGroup.concerns, hvalid]

/-- The rows of the driver's tables have different ids. -/
theorem row_of_resId {g g' : CfgGroup} {row row' : NameValueMap} (hrow : row ∈ g.kind.table)
    (hrow' : row' ∈ g'.kind.table) (h : row.resId = row'.resId) : g = g' ∧ row = row' := by
  have hall : ∀ g g' : CfgGroup, ∀ row ∈ g.kind.table, ∀ row' ∈ g'.kind.table,
      row.resId = row'.resId → g = g' ∧ row = row' := by
    intro g g'
    cases g <;> cases g' <;> decide
  exact hall g g' row hrow row' hrow' h

theorem crBits_overlap {g : CfgGroup} (hg : g ≠ .msr) :
    ∀ row ∈ g.kind.table, ∀ row' ∈ g.kind.table,
      row.value &&& row'.value ≠ 0 → row.resId = row'.resId := by
  cases g with
  | cr0 => decide
  | cr4 => decide
  | msr => exact absurd rfl hg

theorem msrRegs_value : ∀ row ∈ msrRegs, ∀ row' ∈ msrRegs,
    row.value.truncate 32 = row'.value.truncate 32 → row.resId = row'.resId := by decide

/-- Items of one resource stand for the same. -/
theorem concerns_of_resource {item item' : Item} (h : item'.resource = item.resource) (w : Watch) :
    item'.group.concerns item'.cfg.row w = item.group.concerns item.cfg.row w := by
  obtain ⟨hgroup, hrow⟩ := row_of_resId item'.cfg.row_mem item.cfg.row_mem h
  exact congrArg₂ (fun g row => CfgGroup.concerns g row w) hgroup hrow

/-- Rows of different groups stand for different things. -/
theorem group_of_concerns {g g' : CfgGroup} {row row' : NameValueMap} {w : Watch}
    (h : g.concerns row w = true) (h' : g'.concerns row' w = true) : g = g' := by
  cases w with
  | crBit reg cpu bit =>
    cases g <;> cases g' <;> simp only [CfgGroup.concerns, decide_eq_true_eq] at h h'
    case cr0.cr0 => rfl
    case cr0.cr4 => exact absurd (h.1.trans h'.1.symm) (by decide)
    case cr0.msr => cases h'
    case cr4.cr0 => exact absurd (h.1.trans h'.1.symm) (by decide)
    case cr4.cr4 => rfl
    case cr4.msr => cases h'
    case msr.cr0 => cases h
    case msr.cr4 => cases h
    case msr.msr => rfl
  | msr msrId =>
    cases g <;> cases g' <;> first | rfl | cases h | cases h'

/-- What rows of different resources stand for is disjoint. -/
theorem resId_of_concerns {g g' : CfgGroup} {row row' : NameValueMap} (hrow : row ∈ g.kind.table)
    (hrow' : row' ∈ g'.kind.table) {w : Watch} (h : g.concerns row w = true)
    (h' : g'.concerns row' w = true) : row.resId = row'.resId := by
  obtain rfl := group_of_concerns h h'
  have hoverlap : ∀ {bit : Nat}, row.value.getLsbD bit = true → row'.value.getLsbD bit = true →
      row.value &&& row'.value ≠ 0 := by
    intro bit hbit hbit' hzero
    have := congrArg (fun x => x.getLsbD bit) hzero
    simp [hbit, hbit'] at this
  cases w with
  | crBit reg cpu bit =>
    cases g with
    | cr0 =>
      simp only [CfgGroup.concerns, decide_eq_true_eq] at h h'
      exact crBits_overlap (by decide) row hrow row' hrow' (hoverlap h.2.2 h'.2.2)
    | cr4 =>
      simp only [CfgGroup.concerns, decide_eq_true_eq] at h h'
      exact crBits_overlap (by decide) row hrow row' hrow' (hoverlap h.2.2 h'.2.2)
    | msr => cases h
  | msr msrId =>
    cases g with
    | cr0 => cases h
    | cr4 => cases h
    | msr =>
      simp only [CfgGroup.concerns, decide_eq_true_eq] at h h'
      exact msrRegs_value row hrow row' hrow' (h.trans h'.symm)

/-! ## The system -/

/-- Driver and handler, and for each item whether it is settled. -/
structure EnforceSystem where
  fs : Configfs
  settled : Path → Bool
  handler : HandlerState

/-- What happens: an operation of the user, with the event in which the message it sends, if any,
reaches the handler; or another event of the handler. -/
inductive EnforceAction
  | user (op : CfgOp) (info : EventInfo) (env : Surroundings)
  | event (e : Event)

/-- The settled items after an operation that returned `ret`. -/
def settle (op : CfgOp) (ret : Except Errno Nat) (settled : Path → Bool) : Path → Bool :=
  match op, ret with
  | .storeEnable p _ _, .ok _ => Function.update settled p true
  | .storeWrite p _, .ok _ => Function.update settled p false
  | .storeStickyValue p _, .ok _ => Function.update settled p false
  | _, _ => settled

/-- The system after an operation of the user: the handler gets the message sent. -/
def EnforceSystem.after (debug : Bool) (s : EnforceSystem) (op : CfgOp) (info : EventInfo)
    (env : Surroundings) (result : OpResult) : EnforceSystem where
  fs := result.fs
  settled := settle op result.ret s.settled
  handler :=
    match result.sent with
    | some msg => reportEvent debug s.handler ⟨env, info, .msg msg⟩
    | none => s.handler

/-- Without a message the handler is as before. -/
theorem EnforceSystem.handler_after (debug : Bool) (s : EnforceSystem) (op : CfgOp)
    (info : EventInfo) (env : Surroundings) {result : OpResult} (hsent : result.sent = none) :
    (s.after debug op info env result).handler = s.handler := by
  rw [after, hsent]

/-- One action. -/
def enforceStep (debug : Bool) (s : EnforceSystem) : EnforceAction → EnforceSystem
  | .user op info env => s.after debug op info env (s.fs.exec op)
  | .event e => { s with handler := reportEvent debug s.handler e }

/-- The system at start. -/
def EnforceSystem.init (fw : Framework) : EnforceSystem :=
  ⟨.empty, fun _ => false, handlerInitialize (.boot fw)⟩

/-- Nothing fails while a message is sent and handled; the handler gets no other policy message. -/
def NothingFails (debug : Bool) : EnforceAction → Prop
  | .user (.storeEnable _ _ answers) _ env =>
    answers.allocated = true ∧ answers.delivered = true ∧ ∀ n, env.outcome n = .success
  | .user _ _ _ => True
  | .event e => e.policyCommand debug = none

/-- The items have the same settings to send. -/
def SameSettings (item item' : Item) : Prop :=
  item.cfg.write = item'.cfg.write ∧ item.cfg.stickyValue = item'.cfg.stickyValue

instance (item item' : Item) : Decidable (SameSettings item item') := by
  unfold SameSettings
  infer_instance

/-- The settings of the item at `p`, sent with `value`, do not contradict what the driver reports:
they do not enable an item of `STAR` or `LSTAR`, and they are those of every other item of the
resource that is enabled and settled. -/
def Agree (s : EnforceSystem) (p : Path) (item : Item) (value : U64) : Prop :=
  (value ≠ 0 → item.resource.isStar = false) ∧
    ∀ e ∈ s.fs.items.entries, e.1 ≠ p → e.2.resource = item.resource →
      e.2.cfg.enable = true → s.settled e.1 = true →
      value ≠ 0 ∧ SameSettings e.2 item

/-- All settings the action sends agree with what the driver reports. -/
def SendsAgree (s : EnforceSystem) : EnforceAction → Prop
  | .user (.storeEnable p page _) _ _ => ∀ item ∈ s.fs.items.lookup p, item.cfg.locked = false →
      (kstrtoul page 0).elim True (Agree s p item)
  | _ => True

instance (s : EnforceSystem) (p : Path) (item : Item) : DecidablePred (Agree s p item) := by
  intro value
  unfold Agree
  infer_instance

instance decidableElim {α : Type} (p : α → Prop) [DecidablePred p] (o : Option α) :
    Decidable (o.elim True p) := by
  cases o with
  | none => exact inferInstanceAs (Decidable True)
  | some a => exact inferInstanceAs (Decidable (p a))

instance (s : EnforceSystem) : (a : EnforceAction) → Decidable (SendsAgree s a)
  | .user (.storeEnable p page _) _ _ =>
    inferInstanceAs (Decidable (∀ item ∈ s.fs.items.lookup p, item.cfg.locked = false →
      (kstrtoul page 0).elim True (Agree s p item)))
  | .user (.mkdirGroup ..) .. | .user (.rmdirGroup ..) .. | .user (.mkdir ..) ..
  | .user (.rmdir ..) .. | .user (.storeWrite ..) .. | .user (.storeStickyValue ..) ..
  | .event _ => inferInstanceAs (Decidable True)

/-- The handler enforces the settings of the item: the policy of its resource has them, and the
framework monitors all its bits, or its MSR. -/
structure Enforces (map : Finmap fun _ : U32 => Policy) (watches : Watch → Bool) (item : Item) :
    Prop where
  policy : ∃ policy, map.lookup item.resource.code = some policy ∧
    policy.wAction = item.cfg.write.zeroExtend 32 ∧ policy.stickyVal = item.cfg.stickyValue
  monitored : ∀ w, item.group.concerns item.cfg.row w = true → watches w = true

/-- **The invariant**: a handler that holds the policy `map` enforces the items that are enabled and
settled. -/
structure EnforceInv (s : EnforceSystem) (map : Finmap fun _ : U32 => Policy) : Prop where
  refines : Refines s.handler ⟨map, false⟩
  ids : ∀ id ∈ map, ∃ r : ResourceId, r.code = id
  enforced : ∀ p item, s.fs.items.lookup p = some item → item.cfg.enable = true →
    s.settled p = true → Enforces map s.handler.fw.watches item

/-! ## A message reaches the handler -/

/-- The policy command of a message about an item. -/
def policyCommandOf {k : CfgKind} (cfg : Cfg k) (enable : Bool) : PolicyCommand :=
  if enable then .enable (policyMessage cfg cfg.row enable).policyData
  else .disable (policyMessage cfg cfg.row enable).policyData

theorem policyCommand_policyMessage (debug : Bool) {k : CfgKind} (cfg : Cfg k) (enable : Bool) :
    (policyMessage cfg cfg.row enable).policyCommand debug = some (policyCommandOf cfg enable) := by
  cases enable with
  | true => exact if_pos rfl
  | false =>
    have hne : ¬ CommandCode.policyEntryDisable.code = CommandCode.policyEntryEnable.code := by
      decide
    exact (if_neg hne).trans (if_pos rfl)

/-- The policy that a message about the item sets. -/
def Cfg.policy {k : CfgKind} (cfg : Cfg k) : Policy :=
  ⟨0, cfg.write.zeroExtend 32, 0, cfg.stickyValue, k.resourceInfo cfg.row⟩

/-- The policy after the settings of an item were sent. -/
def policyAfter {k : CfgKind} (map : Finmap fun _ : U32 => Policy) (cfg : Cfg k) (enable : Bool) :
    Finmap fun _ : U32 => Policy :=
  if enable then map.insert cfg.row.resId.code cfg.policy else map.erase cfg.row.resId.code

/-- The policy after a message about the item. There is always room for one of the resources. -/
theorem receive_policyCommandOf {map : Finmap fun _ : U32 => Policy}
    (hids : ∀ id ∈ map, ∃ r : ResourceId, r.code = id) {k : CfgKind} (cfg : Cfg k) (enable : Bool) :
    PolicyMap.receive ⟨map, false⟩ (policyCommandOf cfg enable) =
      ⟨policyAfter map cfg enable, false⟩ := by
  cases enable with
  | false => rfl
  | true =>
    have hunknown : ¬ (policyMessage cfg cfg.row true).policyData.resourceId = resourceIdUnknown :=
      cfg.row.resId.code_ne_unknown
    have hsub : map.keys ⊆ resourceCodes := by
      intro id hid
      obtain ⟨r, rfl⟩ := hids id (Finmap.mem_keys.mp hid)
      exact code_mem_resourceCodes r
    have hcard : resourceCodes.card ≤ policyMaxEntries := card_resourceCodes.le
    simp only [PolicyMap.receive, policyCommandOf, Bool.false_eq_true, if_false, if_true,
      if_neg hunknown]
    congr 1
    exact insertBounded_of_subset hsub hcard (code_mem_resourceCodes _) _

/-- The request such a command makes of the framework. -/
theorem fw_apply_policyCommandOf {s : HandlerState} {t : PolicyTable} (ht : s.gPolicyTable = some t)
    {k : CfgKind} (cfg : Cfg k) (enable : Bool) :
    ∃ entry : PolicyEntry, entry.resourceId = cfg.row.resId.code ∧
      entry.resourceInfo = k.resourceInfo cfg.row ∧
      ((policyCommandOf cfg enable).apply s).fw = (policySetMonitor entry enable s.fw).2 := by
  have hunknown : ¬ (policyMessage cfg cfg.row enable).policyData.resourceId = resourceIdUnknown :=
    cfg.row.resId.code_ne_unknown
  refine ⟨policyMsgToEntry (policyMessage cfg cfg.row enable).policyData s.fw.env.stackFlags,
    rfl, rfl, ?_⟩
  cases enable with
  | true =>
    simp only [policyCommandOf, if_true, PolicyCommand.apply, policyMsgAdd, ht, if_neg hunknown]
  | false =>
    simp only [policyCommandOf, Bool.false_eq_true, if_false, PolicyCommand.apply, policyMsgDel,
      ht, if_neg hunknown]

/-- What is monitored after the settings of an item were sent. -/
def WatchesAfter (watches watches' : Watch → Bool) (item : Item) (enable : Bool) : Prop :=
  ∀ w, watches' w =
    if item.resource.isStar = false ∧ item.group.concerns item.cfg.row w = true then enable
    else watches w

/-- **The handler takes a message about an item.** -/
theorem reportEvent_policyMessage (debug : Bool) {s : HandlerState}
    {map : Finmap fun _ : U32 => Policy} (h : Refines s ⟨map, false⟩) {env : Surroundings}
    (hok : ∀ n, env.outcome n = .success) (info : EventInfo) (item : Item) (enable : Bool) :
    let s' := reportEvent debug s ⟨env, info, .msg (policyMessage item.cfg item.cfg.row enable)⟩
    Refines s' (PolicyMap.receive ⟨map, false⟩ (policyCommandOf item.cfg enable)) ∧
      WatchesAfter s.fw.watches s'.fw.watches item enable := by
  intro s'
  have hcommand : Event.policyCommand debug
      ⟨env, info, .msg (policyMessage item.cfg item.cfg.row enable)⟩ =
        some (policyCommandOf item.cfg enable) :=
    (if_pos ⟨hok 0, hok 1⟩).trans (policyCommand_policyMessage debug item.cfg enable)
  refine ⟨?_, fun w => ?_⟩
  · have hstep := h.reportEvent debug
      ⟨env, info, .msg (policyMessage item.cfg item.cfg.row enable)⟩
    unfold PolicyMap.step at hstep
    rwa [hcommand] at hstep
  · rcases reportEvent_cases debug s
        ⟨env, info, .msg (policyMessage item.cfg item.cfg.row enable)⟩ with
      ⟨c, hc, -, -, heq⟩ | ⟨hno, -⟩
    · rw [hcommand, Option.some_inj] at hc
      subst hc
      obtain ⟨t, ht, -⟩ := h.table
      obtain ⟨entry, hid, hinfo, hfw⟩ := fw_apply_policyCommandOf
        (s := s.received ⟨env, info, .msg (policyMessage item.cfg item.cfg.row enable)⟩) ht
        item.cfg enable
      have hbefore : (s.fw.enter env).tick.tick.watches w = s.fw.watches w := rfl
      change (reportEvent debug s _).fw.watches w = _
      rw [heq, hfw]
      change (policySetMonitor entry enable (s.fw.enter env).tick.tick).2.watches w = _
      rw [watches_policySetMonitor, if_pos ⟨hok _, hok _⟩,
        about_monitorCall item.cfg.row_mem hid hinfo, hbefore]
      unfold Item.resource
      split
      · rfl
      · rfl
    · rcases hno with hno | hinit | himm
      · rw [hcommand] at hno
        cases hno
      · rw [h.init] at hinit
        cases hinit
      · rw [h.immutable] at himm
        cases himm

/-! ## What is enforced after a message -/

/-- The ids stay those of resources. -/
theorem ids_policyAfter {map : Finmap fun _ : U32 => Policy}
    (hids : ∀ id ∈ map, ∃ r : ResourceId, r.code = id) {k : CfgKind} (cfg : Cfg k) (enable : Bool) :
    ∀ id ∈ policyAfter map cfg enable, ∃ r : ResourceId, r.code = id := by
  intro id hid
  cases enable with
  | true =>
    rcases Finmap.mem_insert.mp hid with rfl | hold
    · exact ⟨_, rfl⟩
    · exact hids id hold
  | false => exact hids id (Finmap.mem_erase.mp hid).2

namespace Enforces

variable {map : Finmap fun _ : U32 => Policy} {watches watches' : Watch → Bool} {item item' : Item}

/-- An item of the resource, with the settings sent, is enforced. -/
theorem of_sent (hwatches : WatchesAfter watches watches' item true)
    (hstar : item.resource.isStar = false) (hres : item'.resource = item.resource)
    (hsame : SameSettings item' item) :
    Enforces (policyAfter map item.cfg true) watches' item' := by
  refine ⟨⟨item.cfg.policy, ?_, ?_, hsame.2.symm⟩, fun w hw => ?_⟩
  · rw [hres]
    exact Finmap.lookup_insert _
  · rw [hsame.1]
    rfl
  · rw [concerns_of_resource hres] at hw
    rw [hwatches, if_pos ⟨hstar, hw⟩]

/-- An item of another resource stays enforced. -/
theorem of_other (h : Enforces map watches item') {enable : Bool}
    (hwatches : WatchesAfter watches watches' item enable) (hres : item'.resource ≠ item.resource) :
    Enforces (policyAfter map item.cfg enable) watches' item' := by
  have hcode : item'.resource.code ≠ item.cfg.row.resId.code := fun heq =>
    hres (ResourceId.code_injective heq)
  obtain ⟨policy, hlookup, hsettings⟩ := h.policy
  refine ⟨⟨policy, ?_, hsettings⟩, fun w hw => ?_⟩
  · unfold policyAfter
    split
    · rw [Finmap.lookup_insert_of_ne _ hcode, hlookup]
    · rw [Finmap.lookup_erase_ne hcode, hlookup]
  · rw [hwatches, if_neg, h.monitored w hw]
    rintro ⟨-, hconcerns⟩
    exact hres (resId_of_concerns item'.cfg.row_mem item.cfg.row_mem hw hconcerns)

end Enforces

/-! ## The invariant is kept -/

/-- Only a store to `enable` that returns a count settles an item. -/
theorem settled_of_settle {op : CfgOp} {ret : Except Errno Nat} {settled : Path → Bool} {p : Path}
    (hop : ∀ p page answers, op = .storeEnable p page answers → ∃ e, ret = .error e)
    (h : settle op ret settled p = true) : settled p = true := by
  have hupdate : ∀ {p' : Path}, Function.update settled p' false p = true → settled p = true := by
    intro p' hp
    by_cases heq : p = p'
    · rw [heq, Function.update_self] at hp
      cases hp
    · rwa [Function.update_of_ne heq] at hp
  cases op with
  | storeEnable p' page answers =>
    obtain ⟨e, rfl⟩ := hop p' page answers rfl
    exact h
  | storeWrite p' page =>
    cases ret with
    | ok => exact hupdate h
    | error => exact h
  | storeStickyValue p' page =>
    cases ret with
    | ok => exact hupdate h
    | error => exact h
  | mkdirGroup => exact h
  | rmdirGroup => exact h
  | mkdir => exact h
  | rmdir => exact h

namespace EnforceInv

variable {debug : Bool} {s : EnforceSystem} {map : Finmap fun _ : U32 => Policy}

theorem init {fw : Framework} (h : fw.nextOutcome = .success) : EnforceInv (.init fw) ∅ where
  refines := .handlerInitialize h
  ids _ hid := (Finmap.notMem_empty hid).elim
  enforced p item hitem := by
    rw [EnforceSystem.init, Configfs.empty, AList.lookup_empty] at hitem
    cases hitem

/-- An event that is no policy command. -/
theorem event (h : EnforceInv s map) {e : Event} (he : e.policyCommand debug = none) :
    EnforceInv (enforceStep debug s (.event e)) map := by
  rcases reportEvent_cases debug s.handler e with ⟨c, hc, -⟩ | ⟨-, hframe⟩
  · rw [he] at hc
    cases hc
  · refine ⟨h.refines.frame hframe, h.ids, fun p item hitem henable hsettled => ?_⟩
    have hold := h.enforced p item hitem henable hsettled
    exact ⟨hold.policy, fun w hw => (hframe.watches w).trans (hold.monitored w hw)⟩

/-- An operation that sends nothing and settles nothing. -/
theorem silent (h : EnforceInv s map) {s' : EnforceSystem} (hhandler : s'.handler = s.handler)
    (hkeep : ∀ p item, s'.fs.items.lookup p = some item → item.cfg.enable = true →
      s'.settled p = true → s.fs.items.lookup p = some item ∧ s.settled p = true) :
    EnforceInv s' map := by
  refine ⟨hhandler ▸ h.refines, h.ids, fun p item hitem henable hsettled => ?_⟩
  obtain ⟨hold, hsettled'⟩ := hkeep p item hitem henable hsettled
  rw [hhandler]
  exact h.enforced p item hold henable hsettled'

/-- An operation that sends nothing and leaves, at one path, an item that is not both enabled and
settled. -/
theorem replaces (h : EnforceInv s map) {s' : EnforceSystem} (hhandler : s'.handler = s.handler)
    {p : Path} {item : Item} (hitems : s'.fs.items = s.fs.items.insert p item)
    (hitem : item.cfg.enable = true → s'.settled p = false)
    (hsettled : ∀ p', p' ≠ p → s'.settled p' = s.settled p') : EnforceInv s' map := by
  refine h.silent hhandler fun p' item' hitem' henable' hsettled' => ?_
  rw [hitems] at hitem'
  by_cases hp : p' = p
  · subst hp
    rw [AList.lookup_insert, Option.some_inj] at hitem'
    rw [hitem (hitem' ▸ henable')] at hsettled'
    cases hsettled'
  · rw [AList.lookup_insert_ne hp] at hitem'
    exact ⟨hitem', (hsettled p' hp).symm.trans hsettled'⟩

/-- A store that returns a count unsettles its item. -/
theorem unsettles (h : EnforceInv s map) {s' : EnforceSystem} (hhandler : s'.handler = s.handler)
    {p : Path} {item : Item} (hitems : s'.fs.items = s.fs.items.insert p item)
    (hsettled : s'.settled = Function.update s.settled p false) : EnforceInv s' map := by
  refine h.replaces hhandler hitems (fun _ => ?_) fun p' hp => ?_
  · rw [hsettled, Function.update_self]
  · rw [hsettled, Function.update_of_ne hp]

/-- **The settings of an item are sent.** -/
theorem sends (h : EnforceInv s map) {p : Path} {item : Item} {value : U64}
    (hitem : s.fs.items.lookup p = some item) (hagree : Agree s p item value)
    {s' : EnforceSystem} {env : Surroundings} (hok : ∀ n, env.outcome n = .success)
    (info : EventInfo)
    (hfs : s'.fs.items = s.fs.items.insert p ⟨item.group, item.cfg.enabled value⟩)
    (hsettled : ∀ p', p' ≠ p → s'.settled p' = s.settled p')
    (hhandler : s'.handler = reportEvent debug s.handler
      ⟨env, info, .msg (policyMessage item.cfg item.cfg.row (value ≠ 0))⟩) :
    ∃ map', EnforceInv s' map' := by
  obtain ⟨hrefines, hwatches⟩ :=
    reportEvent_policyMessage debug h.refines hok info item (decide (value ≠ 0))
  rw [← hhandler, receive_policyCommandOf h.ids] at hrefines
  rw [← hhandler] at hwatches
  refine ⟨_, hrefines, ids_policyAfter h.ids item.cfg _, fun p' item' hitem' henable' hset => ?_⟩
  rw [hfs] at hitem'
  by_cases hp : p' = p
  · -- the item itself
    subst hp
    rw [AList.lookup_insert, Option.some_inj] at hitem'
    subst hitem'
    have hvalue : value ≠ 0 := by simpa [Cfg.enabled] using henable'
    rw [decide_eq_true hvalue] at hwatches ⊢
    exact .of_sent hwatches (hagree.1 hvalue) rfl ⟨rfl, rfl⟩
  · rw [AList.lookup_insert_ne hp] at hitem'
    rw [hsettled p' hp] at hset
    by_cases hres : item'.resource = item.resource
    · -- another item of the resource: it has the same settings
      obtain ⟨hvalue, hsame⟩ :=
        hagree.2 ⟨p', item'⟩ (AList.mem_lookup_iff.mp hitem') hp hres henable' hset
      rw [decide_eq_true hvalue] at hwatches ⊢
      exact .of_sent hwatches (hagree.1 hvalue) hres hsame
    · exact (h.enforced p' item' hitem' henable' hset).of_other hwatches hres

/-- **One action.** -/
theorem step (h : EnforceInv s map) {a : EnforceAction} (hno : NothingFails debug a)
    (hagree : SendsAgree s a) : ∃ map', EnforceInv (enforceStep debug s a) map' := by
  cases a with
  | event e => exact ⟨map, h.event hno⟩
  | user op info env =>
    have heffect := exec_effect s.fs op
    unfold enforceStep
    simp only
    generalize s.fs.exec op = result at heffect ⊢
    cases heffect with
    | quiet hitems hsent hret =>
      have hhandler := s.handler_after debug op info env hsent
      refine ⟨map, h.silent hhandler fun p item hitem _ hsettled => ?_⟩
      refine ⟨(hitems p).symm.trans hitem, settled_of_settle ?_ hsettled⟩
      rintro p page answers rfl
      exact hret p page answers rfl hno.1
    | made item _ henable _ hitems hsent =>
      refine ⟨map, h.replaces (s.handler_after debug _ info env hsent) hitems ?_ fun _ _ => rfl⟩
      intro h'
      rw [henable] at h'
      cases h'
    | @removed p' _ item hitem hitems hsent =>
      have hhandler := s.handler_after debug (.rmdir p') info env hsent
      refine ⟨map, h.silent hhandler fun p item' hitem' _ hsettled => ?_⟩
      rw [EnforceSystem.after, hitems] at hitem'
      by_cases hp : p = p'
      · rw [hp, AList.lookup_erase] at hitem'
        cases hitem'
      · rw [AList.lookup_erase_ne hp] at hitem'
        exact ⟨hitem', hsettled⟩
    | wrote item _ _ _ hitems hsent hret =>
      refine ⟨map, h.unsettles (s.handler_after debug _ info env hsent) hitems ?_⟩
      simp only [EnforceSystem.after, hret, settle]
    | stuck item _ _ _ hitems hsent hret =>
      refine ⟨map, h.unsettles (s.handler_after debug _ info env hsent) hitems ?_⟩
      simp only [EnforceSystem.after, hret, settle]
    | @sent p page answers _ item value hitem hfree hvalue hallocated hitems hsent hret =>
      obtain ⟨-, hdelivered, hok⟩ := hno
      have hagrees := hagree item hitem hfree
      rw [hvalue] at hagrees
      refine @sends debug _ _ h _ _ _ hitem hagrees _ _ hok info ?_ ?_ ?_
      · simp only [EnforceSystem.after, hitems, hdelivered, if_true]
      · intro p' hp
        simp only [EnforceSystem.after, hret, settle]
        exact Function.update_of_ne hp _ _
      · rw [EnforceSystem.after, hsent]

end EnforceInv

/-! ## Runs -/

/-- The steps of a run in which nothing fails and the settings sent do not contradict each other. -/
def Enforceable (debug : Bool) (s : EnforceSystem) (a : EnforceAction) : Prop :=
  NothingFails debug a ∧ SendsAgree s a

/-- **What is reported as enabled is enforced.** In such a run, for an item that is enabled and
settled, the handler's table has an entry of its resource with its write action and sticky value,
and the handler has asked the framework to monitor all its bits, or its MSR, and not since to
stop. -/
theorem enabled_enforced {debug : Bool} {fw : Framework} (halloc : fw.nextOutcome = .success)
    {actions : List EnforceAction}
    (hok : Steps (enforceStep debug) (Enforceable debug) (.init fw) actions) :
    let s := run (enforceStep debug) (.init fw) actions
    ∀ p item, s.fs.items.lookup p = some item → item.cfg.enable = true → s.settled p = true →
      (∃ t entry, s.handler.gPolicyTable = some t ∧ entry ∈ t.policyEntry ∧
        entry.resourceId = item.resource.code ∧
        entry.wAction = item.cfg.write.zeroExtend 32 ∧ entry.stickyVal = item.cfg.stickyValue) ∧
      ∀ w, item.group.concerns item.cfg.row w = true → s.handler.fw.watches w = true := by
  intro s p item hitem henable hsettled
  have hinv : ∃ map, EnforceInv s map :=
    steps_inv (fun s => ∃ map, EnforceInv s map) (fun _ _ ⟨_, h⟩ ha => h.step ha.1 ha.2) actions
      ⟨_, .init halloc⟩ hok
  obtain ⟨map, h⟩ := hinv
  obtain ⟨⟨policy, hlookup, hwrite, hsticky⟩, hmonitored⟩ :=
    h.enforced p item hitem henable hsettled
  obtain ⟨t, ht, -, hmap⟩ := h.refines.table
  have hslot : (slotOf PolicyEntry.resourceId item.resource.code t.policyEntry).map
      PolicyEntry.policy = some policy := by
    rw [← lookup_toMap PolicyEntry.policy item.resource.code_ne_unknown, ← hlookup]
    exact congrArg (Finmap.lookup item.resource.code) hmap
  obtain ⟨entry, hentry, rfl⟩ := Option.map_eq_some_iff.mp hslot
  exact ⟨⟨t, entry, ht, mem_of_slotOf hentry, key_of_slotOf hentry, hwrite, hsticky⟩, hmonitored⟩

/-- The operation of the user, where nothing fails. -/
def userAction (op : CfgOp) : EnforceAction := .user op ⟨0, 0, 0⟩ .cooperative

/-- The user makes the item `name` of directory `msr`, with SKIP, and enables it. -/
def protectMsr (name : String) : List EnforceAction :=
  let path : Path := ⟨"msr".toList, name.toList⟩
  [userAction (.mkdirGroup "msr".toList ⟨true, true⟩), userAction (.mkdir path ⟨true, true⟩),
    userAction (.storeWrite path "2".toList),
    userAction (.storeEnable path "1\n".toList ⟨true, true⟩)]

/-- EFER is enabled, and so enforced. -/
theorem enabled_enforced_efer :
    let s := run (enforceStep false) (.init .atBoot) (protectMsr "efer")
    (∃ item, s.fs.items.lookup ⟨"msr".toList, "efer".toList⟩ = some item ∧
      item.cfg.enable = true ∧ s.settled ⟨"msr".toList, "efer".toList⟩ = true) ∧
    ∀ p item, s.fs.items.lookup p = some item → item.cfg.enable = true → s.settled p = true →
      (∃ t entry, s.handler.gPolicyTable = some t ∧ entry ∈ t.policyEntry ∧
        entry.resourceId = item.resource.code ∧
        entry.wAction = item.cfg.write.zeroExtend 32 ∧ entry.stickyVal = item.cfg.stickyValue) ∧
      ∀ w, item.group.concerns item.cfg.row w = true → s.handler.fw.watches w = true :=
  ⟨⟨_, rfl, by decide +kernel⟩, @enabled_enforced false .atBoot rfl _
    ⟨⟨trivial, trivial⟩, ⟨trivial, trivial⟩, ⟨trivial, trivial⟩,
      ⟨⟨rfl, rfl, fun _ => rfl⟩, by decide +kernel⟩, trivial⟩⟩

/-- **STAR is not monitored.** The item is enabled and settled, and nothing failed; the handler has
never asked to monitor the MSR. -/
theorem star_not_monitored :
    let path : Path := ⟨"msr".toList, "STAR".toList⟩
    let s := run (enforceStep false) (.init .atBoot) (protectMsr "STAR")
    (∃ item, s.fs.items.lookup path = some item ∧ item.cfg.enable = true ∧ s.settled path = true ∧
      item.group.concerns item.cfg.row (.msr 0xC0000081) = true) ∧
      s.handler.fw.watches (.msr 0xC0000081) = false :=
  ⟨⟨_, rfl, by decide +kernel⟩, by decide +kernel⟩

end IkgtUsage
