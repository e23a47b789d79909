import IkgtUsage.Driver.Agent
import IkgtUsage.Protocol.Enforced

/-!
# How a policy is frozen

An immutable policy protects whatever the user does, and the handler has a command that makes it so.
The driver never sends that command. What it sends are the settings of items, the log area, and in a
debug build the number that is written to its sysctl file; a handler of a debug build takes the
number 400 for the command. So the policy is frozen exactly if both are debug builds, the sysctl
file is there, and the user has written 400 to it while the driver was still running
(`policy_frozen_iff`): in a release build of either of them it never is. This is about a handler
that gets policy messages from the driver only.
-/

namespace IkgtUsage

open Framework Lib

/-! ## The system -/

/-- The driver's module, `none` once it has been stopped, and the handler. -/
structure AgentSystem where
  agent : Option Agent
  handler : HandlerState

/-- An operation of the module, whose message, if it sends one, reaches the handler or is lost; or
another event of the handler. -/
inductive AgentAction
  | agent (op : AgentOp) (reaches : Bool) (info : EventInfo) (env : Surroundings)
  | event (e : Event)

/-- The handler after a message was sent to it. -/
def HandlerState.receives (debug : Bool) (s : HandlerState) (reaches : Bool) (info : EventInfo)
    (env : Surroundings) : Option PolicyMessage → HandlerState
  | some msg => if reaches then reportEvent debug s ⟨env, info, .msg msg⟩ else s
  | none => s

/-- One action, with a handler of the build `debug`. -/
def agentStep (debug : Bool) (s : AgentSystem) : AgentAction → AgentSystem
  | .agent op reaches info env =>
    match s.agent with
    | none => s
    | some a =>
      match a.exec op with
      | none => { s with agent := none }
      | some result =>
        ⟨some result.agent, s.handler.receives debug reaches info env result.sent⟩
  | .event e => { s with handler := reportEvent debug s.handler e }

/-- The handler is initialised and the module is loaded. -/
def AgentSystem.load (debugDriver debugHandler : Bool) (answers : LoadAnswers) (fw : Framework)
    (reaches : Bool) (info : EventInfo) (env : Surroundings) : AgentSystem :=
  let result := initAgent debugDriver answers
  ⟨some result.agent,
    (handlerInitialize (.boot fw)).receives debugHandler reaches info env result.sent⟩

/-- The operation writes 400 to the sysctl file. -/
def AgentOp.Freezes : AgentOp → Prop
  | writeSysctl buffer _ => kstrtoulFromUser buffer = some 400
  | _ => False

/-- The user writes 400 to the sysctl file, and the message gets through to the handler. -/
def AgentAction.Freezes : AgentAction → Prop
  | agent op reaches _ env =>
    op.Freezes ∧ reaches = true ∧ env.outcome 0 = .success ∧ env.outcome 1 = .success
  | event _ => False

/-- The user writes 1000 to the sysctl file. -/
def AgentAction.TestsLog : AgentAction → Prop
  | agent op _ _ _ => op.TestsLog
  | event _ => False

/-- The handler gets no policy message but the driver's. -/
def AgentAction.FromDriver (debug : Bool) : AgentAction → Prop
  | agent .. => True
  | event e => e.policyCommand debug = none

theorem AgentOp.TestsLog.not_freezes {op : AgentOp} (h : op.TestsLog) : ¬ op.Freezes := by
  cases op with
  | writeSysctl buffer stack =>
    intro hfreezes
    have heq : (1000 : U64) = 400 := Option.some_inj.mp (h.symm.trans hfreezes)
    exact absurd heq (by decide)
  | configfs | readLog | readSysctl | logArea => exact h.elim

/-! ## Events -/

/-- A command does not undo the initialisation, and only one of them freezes the policy. -/
theorem PolicyCommand.apply_frozen (c : PolicyCommand) (s : HandlerState) :
    (c.apply s).gBInitStatus = s.gBInitStatus ∧
      ((c.apply s).gPolicyImmutable = true ↔ s.gPolicyImmutable = true ∨ c = .makeImmutable) := by
  cases c with
  | makeImmutable => exact ⟨rfl, by simp [apply]⟩
  | enable msg =>
    simp only [apply, policyMsgAdd, reduceCtorEq, or_false]
    cases s.gPolicyTable with
    | none => exact ⟨rfl, Iff.rfl⟩
    | some t => by_cases hid : msg.resourceId = resourceIdUnknown <;> simp [hid]
  | disable msg =>
    simp only [apply, policyMsgDel, reduceCtorEq, or_false]
    cases s.gPolicyTable with
    | none => exact ⟨rfl, Iff.rfl⟩
    | some t => by_cases hid : msg.resourceId = resourceIdUnknown <;> simp [hid]

/-- **An event freezes the policy** if it delivers the command. -/
theorem reportEvent_frozen (debug : Bool) (s : HandlerState) (e : Event) :
    (reportEvent debug s e).gBInitStatus = s.gBInitStatus ∧
      ((reportEvent debug s e).gPolicyImmutable = true ↔
        s.gPolicyImmutable = true ∨
          s.gBInitStatus = true ∧ e.policyCommand debug = some .makeImmutable) := by
  rcases reportEvent_cases debug s e with ⟨c, hc, hinit, -, heq⟩ | ⟨hno, hframe⟩
  · obtain ⟨hkeep, hfrozen⟩ := c.apply_frozen (s.received e)
    rw [heq, hc]
    refine ⟨hkeep, hfrozen.trans (or_congr_right ?_)⟩
    rw [Option.some_inj, and_iff_right hinit]
  · refine ⟨hframe.init, ?_⟩
    rw [hframe.immutable]
    refine (or_iff_left_of_imp ?_).symm
    rintro ⟨hinit, hc⟩
    rcases hno with hno | hno | himm
    · rw [hno] at hc
      cases hc
    · rw [hno] at hinit
      cases hinit
    · exact himm

/-! ## What the driver sends -/

/-- The parameter of the message of `ikgt_debug`. -/
theorem debugParam_debugMessage (stack : PolicyUpdateRec) (parameter : U64) :
    (debugMessage stack parameter).debugParam.parameter = parameter := append_halves parameter

/-- The message of `ikgt_debug` freezes the policy if its number is 400 and the handler is of a
debug build. -/
theorem policyCommand_debugMessage (debug : Bool) (stack : PolicyUpdateRec) (parameter : U64) :
    (debugMessage stack parameter).policyCommand debug = some .makeImmutable ↔
      debug = true ∧ parameter = 400 := by
  have hcommand : (debugMessage stack parameter).policyCommand debug =
      if debug ∧ CommandCode.policyDebug.code = CommandCode.policyDebug.code ∧
          (debugMessage stack parameter).debugParam.parameter = 400 then
        some .makeImmutable
      else none := rfl
  rw [hcommand, debugParam_debugMessage]
  simp

/-- A message of the driver freezes the policy if it comes from a write of 400 to the sysctl file.
-/
theorem Agent.sent_freezes_iff {a : Agent} {op : AgentOp} {result : AgentResult}
    (h : a.exec op = some result) (debug : Bool) :
    (∃ msg, result.sent = some msg ∧ msg.policyCommand debug = some .makeImmutable) ↔
      debug = true ∧ a.sysctl = true ∧ op.Freezes := by
  have hquiet : result.sent = none → ¬ (a.sysctl = true ∧ op.Freezes) →
      ((∃ msg, result.sent = some msg ∧ msg.policyCommand debug = some .makeImmutable) ↔
        debug = true ∧ a.sysctl = true ∧ op.Freezes) := by
    intro hnone hno
    refine iff_of_false ?_ fun hf => hno hf.2
    rintro ⟨msg, hsent, -⟩
    rw [hnone] at hsent
    cases hsent
  have hidle : some a.idle = some result → result.sent = none := by
    rintro ⟨⟩
    rfl
  cases op with
  | configfs op =>
    unfold Agent.exec at h
    cases hfs : a.configfs with
    | none =>
      rw [hfs] at h
      exact hquiet (hidle h) And.right
    | some fs =>
      rw [hfs] at h
      obtain rfl := Option.some_inj.mp h
      refine iff_of_false ?_ fun hf => hf.2.2
      -- a store to `enable` sends one of the other two commands
      rintro ⟨msg, hsent, hcommand⟩
      obtain ⟨item, enable, rfl⟩ := exec_sent hsent
      rw [policyCommand_policyMessage] at hcommand
      cases enable <;> cases hcommand
  | readLog dir allocated =>
    refine hquiet ?_ And.right
    unfold Agent.exec at h
    cases hfs : a.configfs with
    | none =>
      rw [hfs] at h
      exact hidle h
    | some fs =>
      simp only [hfs] at h
      split at h
      · split at h
        · cases h
        · obtain rfl := Option.some_inj.mp h
          rfl
      · exact hidle h
  | readSysctl ppos =>
    refine hquiet ?_ And.right
    unfold Agent.exec at h
    simp only at h
    split at h
    · obtain rfl := Option.some_inj.mp h
      rfl
    · exact hidle h
  | logArea area =>
    obtain rfl := Option.some_inj.mp h
    exact hquiet rfl And.right
  | writeSysctl buffer stack =>
    have hnumber : kstrtoulFromUser [] = none := by decide
    have hfreezes : (AgentOp.writeSysctl buffer stack).Freezes ↔
        kstrtoulFromUser buffer = some 400 := Iff.rfl
    unfold Agent.exec Agent.ikgtSystlDebug at h
    cases hsysctl : a.sysctl with
    | false =>
      simp only [hsysctl, Bool.false_eq_true, if_false] at h
      exact hsysctl ▸ hquiet (hidle h) fun hf => absurd (hsysctl.symm.trans hf.1) (by decide)
    | true =>
      rw [hsysctl] at hquiet
      simp only [hsysctl, if_true] at h
      by_cases hbuffer : buffer = []
      · rw [if_pos hbuffer] at h
        refine hquiet (hidle h) fun hf => ?_
        rw [hfreezes, hbuffer, hnumber] at hf
        cases hf.2
      rw [if_neg hbuffer] at h
      cases hval : kstrtoulFromUser buffer with
      | none =>
        simp only [hval] at h
        refine hquiet (hidle h) fun hf => ?_
        rw [hfreezes, hval] at hf
        cases hf.2
      | some val =>
        simp only [hval] at h
        rw [hfreezes, hval, Option.some_inj] at hquiet ⊢
        split at h
        · rename_i htest
          have hne : val ≠ 400 := by
            rw [htest]
            decide
          split at h
          · cases h
          · obtain rfl := Option.some_inj.mp h
            exact hquiet rfl fun hf => hne hf.2
        · obtain rfl := Option.some_inj.mp h
          simp only [Option.some_inj, exists_eq_left', policyCommand_debugMessage, true_and]

/-! ## The system -/

/-- The invariant. `allocated` says whether the log was set up, `sysctl` whether the sysctl file is
there, and `init` whether the handler is initialised. -/
structure AgentSystemInv (allocated sysctl init : Bool) (s : AgentSystem) : Prop where
  agent : ∀ a, s.agent = some a → AgentInv allocated sysctl a
  init : s.handler.gBInitStatus = init

namespace AgentSystemInv

variable {allocated sysctl init debug : Bool} {s : AgentSystem}

/-- A message of the driver on its way to the handler. -/
theorem receives_frozen (debug : Bool) (s : HandlerState) (reaches : Bool) (info : EventInfo)
    (env : Surroundings) (sent : Option PolicyMessage) :
    (s.receives debug reaches info env sent).gBInitStatus = s.gBInitStatus ∧
      ((s.receives debug reaches info env sent).gPolicyImmutable = true ↔
        s.gPolicyImmutable = true ∨ s.gBInitStatus = true ∧ reaches = true ∧
          env.outcome 0 = .success ∧ env.outcome 1 = .success ∧
            ∃ msg, sent = some msg ∧ msg.policyCommand debug = some .makeImmutable) := by
  cases sent with
  | none => exact ⟨rfl, by simp [HandlerState.receives]⟩
  | some msg =>
    cases reaches with
    | false => exact ⟨rfl, by simp [HandlerState.receives]⟩
    | true =>
      obtain ⟨hinit, hfrozen⟩ := reportEvent_frozen debug s ⟨env, info, .msg msg⟩
      refine ⟨hinit, hfrozen.trans (or_congr_right (and_congr_right fun _ => ?_))⟩
      unfold Event.policyCommand
      simp only [true_and, Option.some_inj, exists_eq_left']
      by_cases hok : env.outcome 0 = .success ∧ env.outcome 1 = .success
      · rw [if_pos hok, ← and_assoc, and_iff_right hok]
      · rw [if_neg hok, ← and_assoc]
        exact iff_of_false (Option.some_ne_none _).symm fun h => hok h.1

section Step

variable {op : AgentOp} {reaches : Bool} {info : EventInfo} {env : Surroundings}

theorem agentStep_stopped (h : s.agent = none) :
    agentStep debug s (.agent op reaches info env) = s := by
  simp only [agentStep, h]

theorem agentStep_stops {a : Agent} (h : s.agent = some a) (hexec : a.exec op = none) :
    agentStep debug s (.agent op reaches info env) = ⟨none, s.handler⟩ := by
  simp only [agentStep, h, hexec]

theorem agentStep_result {a : Agent} {result : AgentResult} (h : s.agent = some a)
    (hexec : a.exec op = some result) :
    agentStep debug s (.agent op reaches info env) =
      ⟨some result.agent, s.handler.receives debug reaches info env result.sent⟩ := by
  simp only [agentStep, h, hexec]

end Step

/-- **One action**: the invariant is kept, the policy is frozen by a write of 400 to the sysctl file
and by nothing else, and the driver is stopped by a write of 1000. -/
theorem step (h : AgentSystemInv allocated sysctl init s) {a : AgentAction}
    (ha : a.FromDriver debug) :
    AgentSystemInv allocated sysctl init (agentStep debug s a) ∧
      ((agentStep debug s a).handler.gPolicyImmutable = true ↔ s.handler.gPolicyImmutable = true ∨
        init = true ∧ debug = true ∧ sysctl = true ∧ s.agent ≠ none ∧ a.Freezes) ∧
      ((agentStep debug s a).agent = none ↔ s.agent = none ∨
        allocated = false ∧ sysctl = true ∧ a.TestsLog) := by
  cases a with
  | event e =>
    obtain ⟨hinit, hfrozen⟩ := reportEvent_frozen debug s.handler e
    have hcommand : e.policyCommand debug = none := ha
    refine ⟨⟨h.agent, hinit.trans h.init⟩, hfrozen.trans (or_congr_right ?_),
      (or_iff_left fun hf => hf.2.2).symm⟩
    rw [hcommand]
    refine iff_of_false ?_ fun hf => hf.2.2.2.2
    rintro ⟨-, hnone⟩
    cases hnone
  | agent op reaches info env =>
    cases hagent : s.agent with
    | none =>
      rw [agentStep_stopped hagent]
      exact ⟨h, (or_iff_left fun hf => hf.2.2.2.1 rfl).symm, by simp [hagent]⟩
    | some a =>
      have hinv := h.agent a hagent
      obtain ⟨hstops, hnext⟩ := hinv.exec op
      cases hexec : a.exec op with
      | none =>
        obtain ⟨hno, hsysctl, htests⟩ := hstops.mp hexec
        rw [agentStep_stops hagent hexec]
        refine ⟨⟨?_, h.init⟩, (or_iff_left ?_).symm,
          iff_of_true rfl (Or.inr ⟨hno, hsysctl, htests⟩)⟩
        · rintro _ ⟨⟩
        · rintro ⟨-, -, -, -, hfreezes, -⟩
          exact htests.not_freezes hfreezes
      | some result =>
        obtain ⟨hinit, hfrozen⟩ := receives_frozen debug s.handler reaches info env result.sent
        rw [agentStep_result hagent hexec]
        refine ⟨⟨?_, hinit.trans h.init⟩, hfrozen.trans (or_congr_right ?_), ?_⟩
        · rintro _ ⟨⟩
          exact hnext result hexec
        · rw [h.init, Agent.sent_freezes_iff hexec debug, hinv.sysctl]
          have hrunning : some a ≠ none := Option.some_ne_none a
          unfold AgentAction.Freezes
          tauto
        · refine iff_of_false (Option.some_ne_none _) ?_
          rintro (hnone | htests)
          · cases hnone
          · have hnone := hstops.mpr htests
            rw [hexec] at hnone
            cases hnone

end AgentSystemInv

/-! ## Runs -/

theorem init_handlerInitialize (fw : Framework) :
    (handlerInitialize (.boot fw)).gBInitStatus = true ↔ fw.nextOutcome = .success := by
  by_cases halloc : fw.nextOutcome = .success <;>
    simp [handlerInitialize, policyInitialize, HandlerState.boot, ikgtMalloc, halloc]

/-- What `init_agent` sends is about the log. -/
theorem sent_initAgent {debugDriver : Bool} {answers : LoadAnswers} {msg : PolicyMessage}
    (h : (initAgent debugDriver answers).sent = some msg) (debug : Bool) :
    msg.policyCommand debug = none := by
  have hlog : ∀ {stack logAddr logSize}, some (initLogMessage stack logAddr logSize) = some msg →
      msg.policyCommand debug = none := by
    rintro stack logAddr logSize ⟨⟩
    exact PolicyMessage.policyCommand_initLog rfl
  unfold initAgent at h
  simp only at h
  generalize (if (answers.allocated.1 && answers.allocated.2) = true then answers.logDataGva
    else 0) = logAddr at h
  split at h
  · cases h
  · split at h
    · exact hlog h
    · exact hlog h

theorem AgentSystemInv.load (debugDriver debugHandler : Bool) (answers : LoadAnswers)
    (fw : Framework) (reaches : Bool) (info : EventInfo) (env : Surroundings) :
    let s := AgentSystem.load debugDriver debugHandler answers fw reaches info env
    AgentSystemInv (answers.allocated.1 && answers.allocated.2) (debugDriver && answers.sysctl)
        (handlerInitialize (.boot fw)).gBInitStatus s ∧
      s.agent ≠ none ∧ s.handler.gPolicyImmutable = false := by
  intro s
  obtain ⟨hinit, hfrozen⟩ := AgentSystemInv.receives_frozen debugHandler
    (handlerInitialize (.boot fw)) reaches info env (initAgent debugDriver answers).sent
  refine ⟨⟨?_, hinit⟩, Option.some_ne_none _, Bool.eq_false_iff.mpr fun himm => ?_⟩
  · rintro _ ⟨⟩
    exact AgentInv.init debugDriver answers
  · rcases hfrozen.mp himm with hboot | ⟨-, -, -, -, msg, hsent, hcommand⟩
    · by_cases halloc : fw.nextOutcome = .success <;>
        simp [handlerInitialize, policyInitialize, HandlerState.boot, ikgtMalloc, halloc] at hboot
    · rw [sent_initAgent hsent] at hcommand
      cases hcommand

/-- **When the policy is frozen.** After every load, whatever the user does with the module, which
of its messages reach the handler, what other events are reported and whatever fails there: the
policy is immutable if and only if the handler has been initialised, both are debug builds with the
sysctl file there, and at some point 400 was written to the file and got through, with the driver
still running: the allocations of `init_log` had not failed, or 1000 had not been written before.
Policy messages from elsewhere are excluded (`AgentAction.FromDriver`): with one of them anyone can
freeze the policy of any build. -/
theorem policy_frozen_iff (debugDriver debugHandler : Bool) (answers : LoadAnswers)
    (fw : Framework) (reaches : Bool) (info : EventInfo) (env : Surroundings)
    {actions : List AgentAction} (hactions : ∀ a ∈ actions, a.FromDriver debugHandler) :
    (run (agentStep debugHandler)
        (.load debugDriver debugHandler answers fw reaches info env)
        actions).handler.gPolicyImmutable = true ↔
      fw.nextOutcome = .success ∧ debugHandler = true ∧ (debugDriver && answers.sysctl) = true ∧
        ∃ before a after, actions = before ++ a :: after ∧ a.Freezes ∧
          ((answers.allocated.1 && answers.allocated.2) = true ∨ ∀ b ∈ before, ¬ b.TestsLog) := by
  obtain ⟨hinv, hruns, hmutable⟩ :=
    AgentSystemInv.load debugDriver debugHandler answers fw reaches info env
  generalize AgentSystem.load debugDriver debugHandler answers fw reaches info env = s at *
  rw [← init_handlerInitialize]
  generalize (handlerInitialize (.boot fw)).gBInitStatus = init at *
  generalize (answers.allocated.1 && answers.allocated.2) = allocated at *
  generalize (debugDriver && answers.sysctl) = sysctl at *
  have hkeep : ∀ (s : AgentSystem) (a : AgentAction),
      AgentSystemInv allocated sysctl init s → a.FromDriver debugHandler →
      AgentSystemInv allocated sysctl init (agentStep debugHandler s a) :=
    fun s a h ha => (h.step ha).1
  have hsteps : ∀ {as : List AgentAction} {s : AgentSystem}, (∀ a ∈ as, a.FromDriver debugHandler) →
      Steps (agentStep debugHandler) (fun _ a => a.FromDriver debugHandler) s as :=
    fun h => steps_of_forall (fun _ _ h => h) _ h
  have hstopped : ∀ {before : List AgentAction}, (∀ a ∈ before, a.FromDriver debugHandler) →
      ((run (agentStep debugHandler) s before).agent = none ↔
        allocated = false ∧ sysctl = true ∧ ∃ b ∈ before, b.TestsLog) := by
    intro before hbefore
    have hlatch := run_latch (AgentSystemInv allocated sysctl init) (fun s => s.agent = none)
      (fun _ a => allocated = false ∧ sysctl = true ∧ a.TestsLog) hkeep
      (fun s a h ha => (h.step ha).2.2) before hinv (hsteps hbefore)
    rw [hlatch, or_iff_right hruns]
    constructor
    · rintro ⟨as, b, bs, rfl, hno, hsysctl, htests⟩
      exact ⟨hno, hsysctl, b, List.mem_append_right _ List.mem_cons_self, htests⟩
    · rintro ⟨hno, hsysctl, b, hb, htests⟩
      obtain ⟨as, bs, rfl⟩ := List.append_of_mem hb
      exact ⟨as, b, bs, rfl, hno, hsysctl, htests⟩
  have hlatch := run_latch (AgentSystemInv allocated sysctl init)
    (fun s => s.handler.gPolicyImmutable = true)
    (fun s a => init = true ∧ debugHandler = true ∧ sysctl = true ∧ s.agent ≠ none ∧ a.Freezes)
    hkeep (fun s a h ha => (h.step ha).2.1) actions hinv (hsteps hactions)
  rw [hlatch, hmutable, or_iff_right Bool.false_ne_true]
  constructor
  · rintro ⟨before, a, after, rfl, hinit, hdebug, hsysctl, hrunning, hfreezes⟩
    refine ⟨hinit, hdebug, hsysctl, before, a, after, rfl, hfreezes, ?_⟩
    rw [Ne, hstopped fun b hb => hactions b (List.mem_append_left _ hb)] at hrunning
    by_contra hno
    obtain ⟨hallocated, htests⟩ := not_or.mp hno
    push Not at htests
    exact hrunning ⟨by simpa using hallocated, hsysctl, htests⟩
  · rintro ⟨hinit, hdebug, hsysctl, before, a, after, rfl, hfreezes, hgoes⟩
    refine ⟨before, a, after, rfl, hinit, hdebug, hsysctl, ?_, hfreezes⟩
    rw [Ne, hstopped fun b hb => hactions b (List.mem_append_left _ hb)]
    rintro ⟨hno, -, b, hb, htests⟩
    rcases hgoes with hallocated | hnone
    · rw [hno] at hallocated
      cases hallocated
    · exact hnone b hb htests

/-- The user writes 400 to the sysctl file of a debug build. -/
theorem policy_frozen_iff_400 :
    (run (agentStep true) (.load true true .cooperative .atBoot true ⟨0, 0, 0⟩ .cooperative)
      [.agent (.writeSysctl "400".toList ⟨0, 0, 0, 0, 0, ⟨0, 0, 0⟩⟩) true ⟨0, 0, 0⟩
        .cooperative]).handler.gPolicyImmutable = true := by
  refine (policy_frozen_iff true true .cooperative .atBoot true ⟨0, 0, 0⟩ .cooperative ?_).mpr
    ⟨rfl, rfl, rfl, [], _, [], rfl, ⟨?_, rfl, rfl, rfl⟩, Or.inl rfl⟩
  · exact List.forall_mem_singleton.mpr trivial
  · change kstrtoulFromUser "400".toList = some 400
    decide

end IkgtUsage
