import IkgtUsage.Protocol.Rules

/-!
# Driver, handler and registers, whatever fails

A message is lost if the handler cannot allocate its buffer or copy it. If it has the message but
the framework cannot monitor what it is about, the settings are in the table all the same, and the
driver is not told. So there are two things to keep apart: the settings that the handler has, and
what is monitored. Each is what the last message says that got that far (`handler_holds_taken`).

A register write follows the settings if it is reported and no request of its event fails; else it
takes effect as it is (`registers_follow_taken`). Nothing is assumed here of what succeeds, not even
that the handler could be initialised; only that it gets no settings from anyone else.
-/

namespace IkgtUsage

open Framework Lib

/-! ## Messages that are taken -/

/-- A message that the handler has taken. `monitored` says whether the framework could then do what
it was asked. -/
structure TakenMessage where
  msg : PolicyMessage
  monitored : Bool

/-- The resource that the message is about. -/
def TakenMessage.resourceId (t : TakenMessage) : U32 := t.msg.policyData.resourceId

/-- `w` is what the row of the resource stands for, and the handler has a number for it. -/
def TakenMessage.covers (t : TakenMessage) (w : Watch) : Bool :=
  ruledRows.any fun gr => gr.2.resId.code = t.resourceId ∧ gr.1.concerns gr.2 w = true

/-- The message that the handler takes in an action: the driver sends it, the first two requests
copy it in, and the policy is not immutable. The next two requests are for monitoring. -/
def EnforceSystem.takes (s : EnforceSystem) : EnforceAction → Option TakenMessage
  | .user op _ env =>
    match (s.fs.exec op).sent with
    | some msg =>
      if s.handler.gBInitStatus = true ∧ s.handler.gPolicyImmutable = false ∧
          env.outcome 0 = .success ∧ env.outcome 1 = .success then
        some ⟨msg, env.outcome 2 = .success ∧ env.outcome 3 = .success⟩
      else none
    | none => none
  | .event _ => none

/-- The handler gets no settings but those of the driver; anyone may freeze them. -/
def EnforceAction.SettingsFromDriver (debug : Bool) : EnforceAction → Prop
  | user .. => True
  | event e => ∀ c, e.policyCommand debug = some c → c = .makeImmutable

/-! ## The handler -/

/-- The settings that the handler has, and what is monitored. -/
structure Standing where
  table : U32 → Option Setting
  watched : Watch → Bool

/-- A message is taken. -/
def Standing.take (p : Standing) (t : TakenMessage) : Standing where
  table := Function.update p.table t.resourceId t.msg.asks
  watched w := if (t.monitored && t.covers w) = true then t.msg.asks.isSome else p.watched w

/-- The handler is in the state `p`. -/
structure HandlerState.StandsAt (s : HandlerState) (p : Standing) : Prop where
  settings : ∀ id, (s.policies.lookup id).map Policy.setting = p.table id
  watched : ∀ w, s.fw.watches w = p.watched w
  refines : s.gBInitStatus = true → ∃ map, Refines s ⟨map, s.gPolicyImmutable⟩ ∧
    ∀ id ∈ map, ∃ r : ResourceId, r.code = id
  off : s.gBInitStatus = false → ∀ id, p.table id = none

/-- What a message about an item covers. -/
theorem covers_policyMessage (item : Item) (enable monitored : Bool) (w : Watch) :
    TakenMessage.covers ⟨policyMessage item.cfg item.cfg.row enable, monitored⟩ w = true ↔
      item.resource.isStar = false ∧ item.group.concerns item.cfg.row w = true := by
  unfold TakenMessage.covers
  rw [List.any_eq_true]
  constructor
  · rintro ⟨⟨g, row⟩, hmem, hrow⟩
    obtain ⟨hcode, hconcerns⟩ := of_decide_eq_true hrow
    obtain ⟨htable, hstar⟩ := mem_ruledRows.mp hmem
    have hresource : row.resId = item.resource := ResourceId.code_injective hcode
    obtain ⟨rfl, rfl⟩ := row_of_resId htable item.cfg.row_mem hresource
    exact ⟨hstar, hconcerns⟩
  · rintro ⟨hstar, hconcerns⟩
    exact ⟨(item.group, item.cfg.row), mem_ruledRows.mpr ⟨item.cfg.row_mem, hstar⟩,
      decide_eq_true ⟨rfl, hconcerns⟩⟩

namespace HandlerState.StandsAt

variable {debug : Bool} {s s' : HandlerState} {p : Standing}

/-- The policies of a handler are kept by a step that keeps the policy. -/
theorem policies_frame (hf : PolicyFrame s s') : s'.policies = s.policies :=
  Lib.toMap_congr PolicyEntry.policy (policies_of_withoutCount hf.slots)

/-- A change that leaves the policy. -/
theorem frame (h : s.StandsAt p) (hf : PolicyFrame s s') : s'.StandsAt p where
  settings id := by
    rw [policies_frame hf]
    exact h.settings id
  watched w := (hf.watches w).trans (h.watched w)
  refines hinit := by
    obtain ⟨map, hrefines, hids⟩ := h.refines (hf.init.symm.trans hinit)
    exact ⟨map, hf.immutable ▸ hrefines.frame hf, hids⟩
  off hoff := h.off (hf.init.symm.trans hoff)

/-- At first there are no settings, whether or not the handler could be initialised. -/
theorem init (fw : Framework) :
    (handlerInitialize (.boot fw)).StandsAt ⟨fun _ => none, fw.watches⟩ := by
  by_cases halloc : fw.nextOutcome = .success
  · have hrefines := Refines.handlerInitialize halloc
    refine ⟨fun id => ?_, fun w => ?_, fun _ => ⟨∅, ?_, fun _ hid => ?_⟩, fun hoff => ?_⟩
    · rw [hrefines.policies_eq]
      rfl
    · have hfw : (handlerInitialize (.boot fw)).fw = fw.tick := by
        simp [handlerInitialize, policyInitialize, HandlerState.boot, ikgtMalloc, halloc]
      rw [hfw]
      rfl
    · rw [hrefines.immutable]
      exact hrefines
    · exact (Finmap.notMem_empty hid).elim
    · exact absurd (hrefines.init.symm.trans hoff) (by decide)
  · have hboot : handlerInitialize (.boot fw) = { HandlerState.boot fw with
        gBInitStatus := false, fw := fw.tick } := by
      simp [handlerInitialize, policyInitialize, HandlerState.boot, ikgtMalloc, halloc]
    rw [hboot]
    exact ⟨fun _ => rfl, fun _ => rfl, Bool.noConfusion, fun _ _ => rfl⟩

/-- **A message about an item is taken.** -/
theorem taken (h : s.StandsAt p) (debug : Bool) (hinit : s.gBInitStatus = true)
    (himm : s.gPolicyImmutable = false) {env : Surroundings} (h0 : env.outcome 0 = .success)
    (h1 : env.outcome 1 = .success) (info : EventInfo) (item : Item) (enable : Bool) :
    (reportEvent debug s
      ⟨env, info, .msg (policyMessage item.cfg item.cfg.row enable)⟩).StandsAt
        (p.take ⟨policyMessage item.cfg item.cfg.row enable,
          env.outcome 2 = .success ∧ env.outcome 3 = .success⟩) := by
  obtain ⟨map, hrefines, hids⟩ := h.refines hinit
  rw [himm] at hrefines
  obtain ⟨e, he⟩ : ∃ e : Event,
      e = ⟨env, info, .msg (policyMessage item.cfg item.cfg.row enable)⟩ := ⟨_, rfl⟩
  have hcommand : e.policyCommand debug = some (policyCommandOf item.cfg enable) := by
    rw [he]
    exact (if_pos ⟨h0, h1⟩).trans (policyCommand_policyMessage debug item.cfg enable)
  have hrefines' : Refines (reportEvent debug s e) ⟨policyAfter map item.cfg enable, false⟩ := by
    have hstep := hrefines.reportEvent debug e
    have hreceive : PolicyMap.step debug ⟨map, false⟩ e =
        PolicyMap.receive ⟨map, false⟩ (policyCommandOf item.cfg enable) := by
      unfold PolicyMap.step
      rw [hcommand]
    rwa [hreceive, receive_policyCommandOf hids] at hstep
  have hsettings : ∀ id, (map.lookup id).map Policy.setting = p.table id := by
    intro id
    rw [← h.settings id, hrefines.policies_eq]
  rw [← he]
  refine ⟨fun id => ?_, fun w => ?_, fun _ => ⟨_, ?_, ids_policyAfter hids item.cfg enable⟩,
    fun hoff => ?_⟩
  · rw [hrefines'.policies_eq, setting_policyAfter, funext hsettings]
    rfl
  · rcases reportEvent_cases debug s e with ⟨c, hc, -, -, heq⟩ | ⟨hno, -⟩
    · rw [hcommand, Option.some_inj] at hc
      subst hc
      obtain ⟨t, ht, -⟩ := hrefines.table
      obtain ⟨entry, hid, hinfo, hfw⟩ :=
        fw_apply_policyCommandOf (s := s.received e) ht item.cfg enable
      have hbefore : (s.fw.enter env).tick.tick.watches w = p.watched w := h.watched w
      have hfw' : (reportEvent debug s e).fw =
          (policySetMonitor entry enable (s.fw.enter env).tick.tick).2 := by
        rw [heq, hfw, he]
        rfl
      have hnext : (s.fw.enter env).tick.tick.nextOutcome = env.outcome 2 ∧
          (s.fw.enter env).tick.tick.tick.nextOutcome = env.outcome 3 := ⟨rfl, rfl⟩
      rw [hfw', watches_policySetMonitor, about_monitorCall item.cfg.row_mem hid hinfo, hbefore,
        hnext.1, hnext.2]
      have hcovers := covers_policyMessage item enable
        (env.outcome 2 = .success ∧ env.outcome 3 = .success) w
      unfold Standing.take
      simp only [Bool.and_eq_true, decide_eq_true_eq, hcovers, isSome_asks]
      by_cases hcovered : item.cfg.row.resId.isStar = false ∧
          item.group.concerns item.cfg.row w = true
      · rw [if_pos hcovered]
        by_cases hmonitor : env.outcome 2 = .success ∧ env.outcome 3 = .success
        · rw [if_pos hmonitor]
          exact (if_pos ⟨hmonitor, hcovered⟩).symm
        · rw [if_neg hmonitor]
          exact (if_neg fun hboth => hmonitor hboth.1).symm
      · rw [if_neg hcovered]
        exact (ite_self _).trans (if_neg fun hboth => hcovered hboth.2).symm
    · rcases hno with hno | hno | hno
      · rw [hcommand] at hno
        cases hno
      · rw [hinit] at hno
        cases hno
      · rw [himm] at hno
        cases hno
  · rw [hrefines'.immutable]
    exact hrefines'
  · exact absurd (hrefines'.init.symm.trans hoff) (by decide)

/-- The policy is frozen. -/
theorem freeze (h : s.StandsAt p) (e : Event) :
    (PolicyCommand.makeImmutable.apply (s.received e)).StandsAt p where
  settings := h.settings
  watched := h.watched
  refines hinit := by
    obtain ⟨map, hrefines, hids⟩ := h.refines hinit
    exact ⟨map, ⟨hrefines.init, hrefines.table, rfl⟩, hids⟩
  off := h.off

/-- Any other event of the handler. -/
theorem event (h : s.StandsAt p) {e : Event}
    (he : ∀ c, e.policyCommand debug = some c → s.gBInitStatus = true →
      s.gPolicyImmutable = false → c = .makeImmutable) : (reportEvent debug s e).StandsAt p := by
  rcases reportEvent_cases debug s e with ⟨c, hc, hinit, himm, heq⟩ | ⟨-, hframe⟩
  · rw [heq, he c hc hinit himm]
    exact h.freeze e
  · exact h.frame hframe

end HandlerState.StandsAt

/-- **One action.** -/
theorem standing_step (debug : Bool) : Simulates (enforceStep debug) Standing.take
    (fun s a => (s.takes a).toList) (fun _ a => a.SettingsFromDriver debug)
    (fun s p => s.handler.StandsAt p) := by
  intro s p a h ha
  cases a with
  | event e => exact h.event fun c hc _ _ => ha c hc
  | user op info env =>
    change ((s.after debug op info env (s.fs.exec op)).handler).StandsAt _
    cases hsent : (s.fs.exec op).sent with
    | none =>
      rw [s.handler_after debug op info env hsent]
      simp only [EnforceSystem.takes, hsent]
      exact h
    | some msg =>
      obtain ⟨item, enable, rfl⟩ := exec_sent hsent
      simp only [EnforceSystem.takes, EnforceSystem.after, hsent]
      by_cases htaken : s.handler.gBInitStatus = true ∧ s.handler.gPolicyImmutable = false ∧
          env.outcome 0 = .success ∧ env.outcome 1 = .success
      · rw [if_pos htaken]
        obtain ⟨hinit, himm, h0, h1⟩ := htaken
        exact h.taken debug hinit himm h0 h1 info item enable
      · rw [if_neg htaken]
        refine h.event fun c hc hinit himm => ?_
        -- the handler has not got it
        unfold Event.policyCommand at hc
        simp only at hc
        split at hc
        · rename_i hok
          exact absurd ⟨hinit, himm, hok⟩ htaken
        · cases hc

/-- **The last message that got through counts.** Over every run from boot, whatever fails, in which
the handler gets no settings but the driver's: the handler has for each id what the last message
about it that it has taken asks for, and the framework monitors `w` if the last message about it
that it was asked to follow, and could, enables it. -/
theorem handler_holds_taken {debug : Bool} (fw : Framework) {actions : List EnforceAction}
    (hok : ∀ a ∈ actions, a.SettingsFromDriver debug) :
    let s := run (enforceStep debug) (.init fw) actions
    let taken := trace (enforceStep debug) (fun s a => (s.takes a).toList) (.init fw) actions
    (∀ id, (s.handler.policies.lookup id).map Policy.setting =
      (taken.findRev? fun t => t.resourceId = id).bind fun t => t.msg.asks) ∧
    ∀ w, s.handler.fw.watches w =
      ((taken.findRev? fun t => t.monitored && t.covers w).map fun t =>
        t.msg.asks.isSome).getD (fw.watches w) := by
  intro s taken
  have hrun := (standing_step debug).run actions (s := .init fw) (HandlerState.StandsAt.init fw)
    (steps_of_forall (fun _ _ h => h) actions hok)
  have htable : ∀ (p : Standing) (t : TakenMessage) (id : U32), (p.take t).table id =
      if decide (t.resourceId = id) = true then t.msg.asks else p.table id := by
    intro p t id
    simp only [Standing.take, Function.update_apply, decide_eq_true_eq, eq_comm (a := id)]
  have hwatched : ∀ (p : Standing) (t : TakenMessage) (w : Watch), (p.take t).watched w =
      if (t.monitored && t.covers w) = true then t.msg.asks.isSome else p.watched w :=
    fun _ _ _ => rfl
  refine ⟨fun id => (hrun.settings id).trans ?_, fun w => (hrun.watched w).trans ?_⟩
  · rw [run_last Standing.table _ _ htable]
    change ((taken.findRev? fun t => t.resourceId = id).map fun t => t.msg.asks).getD none = _
    cases taken.findRev? fun t => t.resourceId = id with
    | none => rfl
    | some t => rfl
  · exact run_last Standing.watched _ _ hwatched w taken _

/-- Requests fail from number `n` on. -/
def Surroundings.failFrom (n : Nat) : Surroundings :=
  { cooperative with outcome := fun k => if k < n then .success else .error }

/-- The user protects EFER, and the framework cannot monitor it. -/
def unmonitoredEfer : List EnforceAction :=
  (protectMsr "efer").take 3 ++
    [.user (.storeEnable ⟨"msr".toList, "efer".toList⟩ "1".toList ⟨true, true⟩) ⟨0, 0, 0⟩
      (.failFrom 2)]

theorem unmonitoredEfer_fromDriver : ∀ a ∈ unmonitoredEfer, a.SettingsFromDriver false := by
  intro a ha
  simp only [unmonitoredEfer, protectMsr, List.take_succ_cons, List.take_zero, List.cons_append,
    List.nil_append, List.mem_cons, List.not_mem_nil, or_false] at ha
  rcases ha with rfl | rfl | rfl | rfl
  · trivial
  · trivial
  · trivial
  · trivial

/-- The handler has the setting, and nothing is monitored. -/
theorem handler_holds_taken_efer :
    let s := run (enforceStep false) (.init .atBoot) unmonitoredEfer
    (s.handler.policies.lookup ResourceId.msrEfer.code).map Policy.setting =
        some ⟨policyActSkip, 0⟩ ∧
      ∀ w, s.handler.fw.watches w = false := by
  intro s
  obtain ⟨hsettings, hwatches⟩ := handler_holds_taken .atBoot unmonitoredEfer_fromDriver
  refine ⟨(hsettings _).trans (by decide +kernel), fun w => (hwatches w).trans ?_⟩
  rfl

/-! ## The registers -/

/-- The setting that rules a bit in a control register write: the handler filters every write that
is reported, by its table alone, and so on any CPU. -/
def Standing.crRule (p : Standing) (reported : Bool) (cpu : Nat) (cr : GuestCr) (b : Nat) :
    Option Setting :=
  if reported = true ∨ p.watched (.crBit cr.reg.eventReg cpu b) = true then
    ruleOf p.table (.crBit cr.reg.eventReg 0 b)
  else none

/-- The setting that rules a write to an MSR. -/
def Standing.msrRule (p : Standing) (reported : Bool) (msrId : U32) : Option Setting :=
  if reported = true ∨ p.watched (.msr msrId) = true then ruleOf p.table (.msr msrId) else none

/-- The bits after a write of `new` over `cur`, where the settings ask for `ruled`: two reads come
first, and a register has to be written unless `ruled` is what is there. -/
def crBitsAfter (env : Surroundings) (cur new ruled : Nat → Bool) : Nat → Bool :=
  if env.FailedWithin 4 ∨ (env.FailedWithin 6 ∧ ∃ b : Nat, b < 64 ∧ ruled b ≠ cur b) then new
  else ruled

/-- The registers after an action, where the handler is in the state `p`. -/
def GuestRegs.follow (g : GuestRegs) (p : Standing) : MachineAction → GuestRegs
  | .system .. => g
  | .crWrite cpu cr _ value reported _ env =>
    { g with
      cr := fun cpu' cr' b =>
        if cpu' = cpu ∧ cr' = cr then
          crBitsAfter env (g.cr cpu cr) value.getLsbD
            (fun b => ruledBit (p.crRule reported cpu cr b) (g.cr cpu cr b) (value.getLsbD b)) b
        else g.cr cpu' cr' b }
  | .msrWrite cpu rcx rdx rax reported _ env =>
    { g with
      msr := fun cpu' msrId =>
        if cpu' = cpu ∧ msrId = low rcx then
          if env.FailedWithin 8 ∨ 2 ^ 32 ≤ rcx.toNat then edxEax rdx rax
          else ruledMsr (p.msrRule reported msrId) (g.msr cpu msrId) (edxEax rdx rax)
        else g.msr cpu' msrId }

/-- The settings that the handler has, what is monitored, and the registers. -/
structure Followed where
  standing : Standing
  regs : GuestRegs

/-- One action, in which the handler takes a message or none. -/
def followStep (s : Followed) : MachineAction × Option TakenMessage → Followed
  | (a, taken) => ⟨run Standing.take s.standing taken.toList, s.regs.follow s.standing a⟩

/-- The message that the handler takes. -/
def Machine.takes (m : Machine) : MachineAction → Option TakenMessage
  | .system _ a => m.sys.takes a
  | .crWrite .. | .msrWrite .. => none

/-- What is asked of the framework: it reports a register write if the handler has asked to monitor
what it changes. An event of the handler alone is no register write, and brings no settings. -/
def Machine.ReportsAsked (debug : Bool) (m : Machine) : MachineAction → Prop
  | .system _ (.event e) =>
    e.data.NoRegisterWrite ∧ (EnforceAction.event e).SettingsFromDriver debug
  | .system _ (.user ..) => True
  | .crWrite cpu cr _ value reported _ _ =>
    reported = true ∨ ∀ b, m.sys.handler.fw.watches (.crBit cr.reg.eventReg cpu b) = true →
      value.getLsbD b = (m.cr cpu cr).getLsbD b
  | .msrWrite _ rcx _ _ reported _ _ =>
    reported = true ∨ m.sys.handler.fw.watches (.msr (low rcx)) = false

/-- Driver, handler and registers are in the state `s`. -/
structure Machine.Follows (m : Machine) (s : Followed) : Prop where
  standing : m.sys.handler.StandsAt s.standing
  regs : m.regs = s.regs

theorem ruleOf_none (w : Watch) : ruleOf (fun _ => none) w = none := by
  unfold ruleOf
  cases ruledRows.find? fun gr => gr.1.concerns gr.2 w with
  | none => rfl
  | some gr => rfl

/-- Where nothing is changed, nothing can go wrong. -/
theorem crBitsAfter_self (env : Surroundings) (cur new : Nat → Bool) :
    crBitsAfter env cur new new = new := by
  unfold crBitsAfter
  exact ite_self _

/-- The bits of `crAfter`. -/
theorem getLsbD_crAfter (env : Surroundings) (cur new filtered : U64) :
    (crAfter env cur new filtered).getLsbD =
      crBitsAfter env cur.getLsbD new.getLsbD filtered.getLsbD := by
  have hdiffer : filtered ≠ cur ↔ ∃ b : Nat, b < 64 ∧ filtered.getLsbD b ≠ cur.getLsbD b := by
    constructor
    · intro hne
      by_contra hno
      push Not at hno
      exact hne (BitVec.eq_of_getLsbD_eq hno)
    · rintro ⟨b, -, hb⟩ rfl
      exact hb rfl
  unfold crAfter crBitsAfter
  rw [apply_ite BitVec.getLsbD]
  exact if_congr (or_congr_right (and_congr_right fun _ => hdiffer)) rfl rfl

namespace Machine

variable {debug : Bool} {m : Machine} {p : Standing}

/-- Driver and handler in a step of the machine. -/
theorem standing_step (h : m.sys.handler.StandsAt p) {a : MachineAction}
    (ha : m.ReportsAsked debug a) :
    (machineStep debug m a).sys.handler.StandsAt (run Standing.take p (m.takes a).toList) := by
  cases a with
  | system cpu a =>
    have hentered : (m.entered (m.reg cpu)).handler.StandsAt p :=
      h.frame (m.frame_entered (m.reg cpu))
    have hsame : (m.entered (m.reg cpu)).takes a = m.sys.takes a := by
      cases a <;> rfl
    have hsettings : a.SettingsFromDriver debug := by
      cases a with
      | event e => exact ha.2
      | user => trivial
    rw [show m.takes (.system cpu a) = (m.entered (m.reg cpu)).takes a from hsame.symm]
    exact IkgtUsage.standing_step debug _ _ a hentered hsettings
  | crWrite cpu cr operand value reported info env =>
    exact h.frame (m.frame_registerWrite debug
      (a := .crWrite cpu cr operand value reported info env) trivial).2
  | msrWrite cpu rcx rdx rax reported info env =>
    exact h.frame (m.frame_registerWrite debug
      (a := .msrWrite cpu rcx rdx rax reported info env) trivial).2

/-- **A control register write** follows the settings, or takes effect as it is. -/
theorem follow_crWrite (h : m.sys.handler.StandsAt p) {cpu : Nat} {cr : GuestCr} {operand : GpReg}
    {value : U64} {reported : Bool} {info : EventInfo} {env : Surroundings}
    (ha : m.ReportsAsked debug (.crWrite cpu cr operand value reported info env)) :
    (machineStep debug m (.crWrite cpu cr operand value reported info env)).regs =
      m.regs.follow p (.crWrite cpu cr operand value reported info env) := by
  refine GuestRegs.ext ?_ (msr_crWrite cr operand value reported info env)
  funext cpu' cr' b
  change ((machineStep debug m _).cr cpu' cr').getLsbD b =
    if cpu' = cpu ∧ cr' = cr then crBitsAfter env (m.cr cpu cr).getLsbD value.getLsbD
      (fun b => ruledBit (p.crRule reported cpu cr b) ((m.cr cpu cr).getLsbD b)
        (value.getLsbD b)) b
    else (m.cr cpu' cr').getLsbD b
  -- a write that goes through, of which the settings ask for nothing else
  have hthrough : (∀ b, ruledBit (p.crRule reported cpu cr b) ((m.cr cpu cr).getLsbD b)
      (value.getLsbD b) = value.getLsbD b) →
        (if cpu' = cpu ∧ cr' = cr then value else m.cr cpu' cr').getLsbD b =
          if cpu' = cpu ∧ cr' = cr then crBitsAfter env (m.cr cpu cr).getLsbD value.getLsbD
            (fun b => ruledBit (p.crRule reported cpu cr b) ((m.cr cpu cr).getLsbD b)
              (value.getLsbD b)) b
          else (m.cr cpu' cr').getLsbD b := by
    intro hsame
    rw [funext hsame, crBitsAfter_self]
    exact apply_ite (fun v : U64 => v.getLsbD b) _ _ _
  cases reported with
  | true =>
    by_cases hinit : m.sys.handler.gBInitStatus = true
    · obtain ⟨map, hrefines, -⟩ := h.refines hinit
      have hcpu : 0 < 128 := by decide
      rw [cr_reported hinit hrefines.distinct cr operand value info env,
        apply_ite (fun v : U64 => v.getLsbD b), getLsbD_crAfter,
        funext (getLsbD_filteredCr hrefines.distinct h.settings cr hcpu (m.cr cpu cr) value)]
      rfl
    · rw [cr_reported_off hinit]
      refine hthrough fun b => ?_
      have hnone : p.table = fun _ => none := funext (h.off (by simpa using hinit))
      unfold Standing.crRule
      rw [hnone, ruleOf_none, ite_self]
      rfl
  | false =>
    rw [cr_passed]
    refine hthrough fun b => ?_
    unfold Standing.crRule
    by_cases hwatch : p.watched (.crBit cr.reg.eventReg cpu b) = true
    · -- what is monitored is not changed by a write that is not reported
      have hsame := ha.resolve_left Bool.false_ne_true b ((h.watched _).trans hwatch)
      rw [hsame]
      unfold ruledBit
      split
      · rfl
      · exact if_pos rfl
    · rw [if_neg fun hor => hor.elim Bool.false_ne_true hwatch]
      rfl

/-- **A WRMSR** follows the settings, or takes effect as it is. -/
theorem follow_msrWrite (h : m.sys.handler.StandsAt p) {cpu : Nat} {rcx rdx rax : U64}
    {reported : Bool} {info : EventInfo} {env : Surroundings}
    (ha : m.ReportsAsked debug (.msrWrite cpu rcx rdx rax reported info env)) :
    (machineStep debug m (.msrWrite cpu rcx rdx rax reported info env)).regs =
      m.regs.follow p (.msrWrite cpu rcx rdx rax reported info env) := by
  refine GuestRegs.ext ?_ ?_
  · funext cpu' cr b
    exact congrArg (fun value : U64 => value.getLsbD b)
      (cr_msrWrite rcx rdx rax reported info env cr)
  funext cpu' msrId
  change (machineStep debug m _).msr cpu' msrId =
    if cpu' = cpu ∧ msrId = low rcx then
      if env.FailedWithin 8 ∨ 2 ^ 32 ≤ rcx.toNat then edxEax rdx rax
      else ruledMsr (p.msrRule reported msrId) (m.msr cpu msrId) (edxEax rdx rax)
    else m.msr cpu' msrId
  -- a write that goes through, of which the settings ask for nothing else
  have hthrough : p.msrRule reported (low rcx) = none →
      (if cpu' = cpu ∧ msrId = low rcx then edxEax rdx rax else m.msr cpu' msrId) =
        if cpu' = cpu ∧ msrId = low rcx then
          if env.FailedWithin 8 ∨ 2 ^ 32 ≤ rcx.toNat then edxEax rdx rax
          else ruledMsr (p.msrRule reported msrId) (m.msr cpu msrId) (edxEax rdx rax)
        else m.msr cpu' msrId := by
    intro hnone
    split
    · rename_i hwrite
      rw [hwrite.2, hnone]
      exact (ite_self _).symm
    · rfl
  cases reported with
  | true =>
    by_cases hinit : m.sys.handler.gBInitStatus = true
    · obtain ⟨map, hrefines, -⟩ := h.refines hinit
      exact msr_reported hinit hrefines.distinct h.settings rcx rdx rax info env msrId
    · rw [msr_msrWrite, makeU64_eq]
      have hallow : (reportEvent debug (m.entered (m.msrOperands cpu rcx rdx rax)).handler
          ⟨env, info, .cpu ⟨.msr, .unknown, .unknown⟩⟩).response = .allow := by
        have hoff : ¬ (m.entered (m.msrOperands cpu rcx rdx rax)).handler.gBInitStatus = true :=
          hinit
        rw [reportEvent_off hoff]
        rfl
      simp only [hallow, implies_true, and_true]
      refine hthrough ?_
      have hnone : p.table = fun _ => none := funext (h.off (by simpa using hinit))
      unfold Standing.msrRule
      rw [hnone, ruleOf_none, ite_self]
  | false =>
    rw [msr_passed]
    refine hthrough (if_neg ?_)
    -- what is monitored would have been reported
    rw [← h.watched, ha.resolve_left Bool.false_ne_true]
    exact fun hor => hor.elim Bool.false_ne_true Bool.false_ne_true

namespace Follows

variable {s : Followed}

/-- **One action.** -/
theorem step (debug : Bool) : Simulates (machineStep debug) followStep
    (fun m a => [(a, m.takes a)]) (ReportsAsked debug) Follows := by
  intro m s a h ha
  refine ⟨standing_step h.standing ha, ?_⟩
  change (machineStep debug m a).regs = s.regs.follow s.standing a
  rw [← h.regs]
  cases a with
  | crWrite cpu cr operand value reported info env => exact follow_crWrite h.standing ha
  | msrWrite cpu rcx rdx rax reported info env => exact follow_msrWrite h.standing ha
  | system cpu a =>
    refine GuestRegs.ext ?_ rfl
    funext cpu' cr b
    refine congrArg (fun value : U64 => value.getLsbD b) (cr_system ?_ cr)
    rintro e rfl
    exact ha.1

end Follows

end Machine

/-- **The registers follow what got through.** Over every run from boot in which the framework
reports what it was asked to and the handler gets no settings but the driver's, whatever fails: each
bit of CR0 and CR4 and each MSR, on each CPU, is where the messages that the handler has taken have
it, but for the writes that take effect as they are because a request has failed, because RCX has
more than 32 bits, or because they are neither monitored nor reported. A message about `STAR` or
`LSTAR` rules nothing (`ruledRows`). -/
theorem registers_follow_taken {debug : Bool} (fw : Framework) (reg : Nat → VmcsReg → U64)
    (msr : Nat → U32 → U64) {actions : List MachineAction}
    (hok : Steps (machineStep debug) (Machine.ReportsAsked debug) (.init fw reg msr) actions) :
    let m := Machine.init fw reg msr
    (run (machineStep debug) m actions).regs =
      (run followStep ⟨⟨fun _ => none, fw.watches⟩, m.regs⟩
        (trace (machineStep debug) (fun m a => [(a, m.takes a)]) m actions)).regs := by
  intro m
  have hinit : m.Follows ⟨⟨fun _ => none, fw.watches⟩, m.regs⟩ := ⟨.init fw, rfl⟩
  exact ((Machine.Follows.step debug).run actions hinit hok).regs

/-- After that CPU 1 writes to EFER twice, and only the second write is reported. -/
def writeUnmonitoredEfer : List MachineAction :=
  unmonitoredEfer.map (.system 0) ++
    [.msrWrite 1 0xC0000080 0 5 false ⟨1, 0, 0⟩ .cooperative,
      .msrWrite 1 0xC0000080 0 6 true ⟨1, 0, 0⟩ .cooperative]

/-- The first write takes effect, the second one is skipped. -/
theorem registers_follow_taken_efer :
    let m := run (machineStep false) (.init .atBoot (fun _ _ => 0) fun _ _ => 7)
      writeUnmonitoredEfer
    m.msr 1 0xC0000080 = 5 := by
  intro m
  have hok : Steps (machineStep false) (Machine.ReportsAsked false)
      (.init .atBoot (fun _ _ => 0) fun _ _ => 7) writeUnmonitoredEfer :=
    ⟨trivial, trivial, trivial, trivial, Or.inr (by decide +kernel), Or.inl rfl, trivial⟩
  have hregs := registers_follow_taken .atBoot (fun _ _ => 0) (fun _ _ => 7) hok
  have hmsr : m.msr = _ := congrArg GuestRegs.msr hregs
  rw [hmsr]
  decide +kernel

end IkgtUsage
