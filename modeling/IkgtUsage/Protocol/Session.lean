import IkgtUsage.Driver.Agent
import IkgtUsage.Handler.Audit
import IkgtUsage.Lib.Simulation
import IkgtUsage.Protocol.Drain

/-!
# Driver and handler over one log area

`init_agent` allocates the area and sends its address; from then on the handler appends a record for
each event that it logs, and the driver reads. `LogSystem` is what this is for: the appends and the
dumps alone. The two programs together simulate it (`session_refines_log`), whatever the framework
answers, as long as the log is not started once more and the events come from CPUs with a buffer.

Where no request of an event fails, the records are those of the events that the policy says to log
and the mask lets through. So a reader of `log.txt` gets what the policy says (`audit_trail`).
-/

namespace IkgtUsage

open Framework Lib

/-! ## The session -/

/-- The driver, the handler, and the records reported so far. -/
structure LogSession where
  driver : LogDriver
  handler : HandlerState
  lines : List (Nat × LogEntry)

/-- What happens: the framework reports an event to the handler, or the log is read. -/
inductive LogSessionAction
  | event (e : Event)
  | readLog

/-- One action. The handler sees the area at the host address `hva`. -/
def logSessionStep (debug : Bool) (hva : U64) (s : LogSession) : LogSessionAction → LogSession
  | .event e =>
    let handler := reportEvent debug s.handler e
    { s with handler := handler, driver := s.driver.withArea (handler.fw.hostLog hva) }
  | .readLog =>
    match dumpLog (true, true) s.driver with
    | some result => { s with driver := result.driver, lines := s.lines ++ result.lines }
    | none => s

/-- The host address of the area, as the handler finds it in the event `info`. -/
def logAreaHva (answers : LoadAnswers) (info : EventInfo) (env : Surroundings) : U64 :=
  env.gpaToHva info.viewHandle (env.gvaToGpa answers.logDataGva)

/-- The session after `init_agent`: the area that the driver allocated is there for the handler, and
the message has reached it. -/
def LogSession.load (debug : Bool) (answers : LoadAnswers) (info : EventInfo) (env : Surroundings)
    (s : HandlerState) : LogSession :=
  let result := initAgent debug answers
  let s :=
    match result.agent.log.logDataGva with
    | .live area =>
      { s with fw := { s.fw with
          hostLog := Function.update s.fw.hostLog (logAreaHva answers info env) area } }
    | .null | .freed => s
  let handler :=
    match result.sent with
    | some msg => reportEvent debug s ⟨env, info, .msg msg⟩
    | none => s
  ⟨result.agent.log, handler, []⟩

/-- Nothing fails while the log is set up. -/
structure LoadAccepted (answers : LoadAnswers) (info : EventInfo) (env : Surroundings) : Prop where
  allocated : answers.allocated = (true, true)
  /-- The buffer of the message, its copy, and the two translations of `start_log`. -/
  outcome : ∀ n < 4, env.outcome n = .success
  hva : logAreaHva answers info env ≠ 0

/-- The message about the log carries the address and the size. -/
theorem logParam_initLogMessage (stack : PolicyUpdateRec) (logAddr : U64) (logSize : U32) :
    (initLogMessage stack logAddr logSize).logParam = ⟨logAddr, logSize⟩ := by
  unfold PolicyMessage.logParam initLogMessage
  simp only
  rw [append_halves]

/-- **The session after the load.** -/
theorem LoadAccepted.load {answers : LoadAnswers} {info : EventInfo} {env : Surroundings}
    (h : LoadAccepted answers info env) (debug : Bool) {s : HandlerState}
    (hinit : s.gBInitStatus = true) :
    let session := LogSession.load debug answers info env s
    session.driver = initLog answers.numOnlineCpus (true, true) .atLoad ∧
      session.lines = [] ∧ session.handler.gLogDataHva = some (logAreaHva answers info env) ∧
      session.handler.fw.hostLog (logAreaHva answers info env) = (fun _ => .zero) ∧
      PolicyFrame s session.handler := by
  intro session
  obtain ⟨hlog, hsent⟩ : (initAgent debug answers).agent.log =
        initLog answers.numOnlineCpus (true, true) .atLoad ∧
      (initAgent debug answers).sent = some (initLogMessage answers.stack answers.logDataGva
        (logAreaSize answers.numOnlineCpus)) := by
    unfold initAgent
    rw [h.allocated]
    simp only [Bool.and_true, if_true, if_neg answers.logDataGva_ne_zero]
    split
    · exact ⟨rfl, rfl⟩
    · exact ⟨rfl, rfl⟩
  -- the handler with the area, when the message has been copied in
  obtain ⟨s0, hs0⟩ : ∃ s0 : HandlerState, s0 = { s with fw := { s.fw with
      hostLog := Function.update s.fw.hostLog (logAreaHva answers info env)
        fun _ => .zero } } := ⟨_, rfl⟩
  have hinit0 : s0.gBInitStatus = true := by rw [hs0]; exact hinit
  obtain ⟨e, he⟩ : ∃ e : Event, e = ⟨env, info, .msg (initLogMessage answers.stack
      answers.logDataGva (logAreaSize answers.numOnlineCpus))⟩ := ⟨_, rfl⟩
  have haccept : StartAccepted info.viewHandle
      ⟨answers.logDataGva, logAreaSize answers.numOnlineCpus⟩ (s0.received e) := by
    rw [he]
    exact ⟨answers.logDataGva_ne_zero, h.outcome 2 (by decide), h.outcome 3 (by decide), h.hva⟩
  have hstart : reportEvent debug s0 e = startLog info.viewHandle
      ⟨answers.logDataGva, logAreaSize answers.numOnlineCpus⟩ (s0.received e) := by
    have hmsg := handleMsgEvent_entered debug e (initLogMessage answers.stack
      answers.logDataGva (logAreaSize answers.numOnlineCpus)) s0
    rw [he] at hmsg ⊢
    simp only at hmsg
    have hcommand : (initLogMessage answers.stack answers.logDataGva
        (logAreaSize answers.numOnlineCpus)).command = CommandCode.policyInitLog.code := rfl
    rw [reportEvent_eq hinit0]
    simp only
    rw [hmsg, if_pos (h.outcome 0 (by decide)), if_pos (h.outcome 1 (by decide)), dispatchMsg_eq,
      if_pos hcommand, logParam_initLogMessage]
  have hhandler : session.handler = reportEvent debug s0 e := by
    have harea := initLog_area answers.numOnlineCpus .atLoad
    simp only [session, LogSession.load, hlog, hsent, harea, hs0, he]
  have hframe : PolicyFrame s (s0.received e) := by
    rw [hs0]
    exact ⟨rfl, rfl, rfl, rfl, rfl⟩
  rw [hhandler, hstart]
  refine ⟨hlog, rfl, ?_, ?_, hframe.trans (.startLog _ _ _)⟩
  · rw [haccept.gLogDataHva, he]
    rfl
  · rw [hostLog_startLog, hs0]
    exact Function.update_self _ _ _

/-! ## What is logged -/

/-- The CPU and the record of an event, if it is logged. -/
def Event.record (e : Event) : Nat × LogRecord :=
  ((e.info.threadId.truncate 32 : U32).toNat, ⟨e.info.rip, e.env.vmexitReason.reason,
    e.env.vmexitReason.qualification, e.env.vmexitReason.gva⟩)

/-- The record that the event adds to the log: that of its call of `log_event`, unless the mask
keeps it out. -/
def loggedBy (debug : Bool) (s : HandlerState) (e : Event) : List (Nat × LogRecord) :=
  if (reportEvent debug s e).logEvents = s.logEvents then []
  else if logMasked e.env then []
  else [e.record]

/-- The record that the policy says to add. -/
def auditedBy (s : HandlerState) (e : Event) : List (Nat × LogRecord) :=
  if Audited s e then if logMasked e.env then [] else [e.record]
  else []

namespace LogSession

/-- The records that an action adds. -/
def recordsBy (debug : Bool) (s : LogSession) : LogSessionAction → List (Nat × LogRecord)
  | .event e => loggedBy debug s.handler e
  | .readLog => []

/-- The records that the policy says an action adds. -/
def auditedRecordsBy (s : LogSession) : LogSessionAction → List (Nat × LogRecord)
  | .event e => auditedBy s.handler e
  | .readLog => []

/-- The actions of the log that match an action. -/
def actionsBy (debug : Bool) (s : LogSession) : LogSessionAction → List LogAction
  | .event e => (loggedBy debug s.handler e).map fun r => .append r.1 r.2
  | .readLog => [.dump]

end LogSession

/-- The event does not start the log once more, and comes from one of the CPUs that have a buffer: a
record of another CPU would be written behind the area. -/
def LogSessionAction.Undisturbed (numOfCpus : U32) : LogSessionAction → Prop
  | event e => ¬ e.StartsLog ∧ e.record.1 < numOfCpus.toNat
  | readLog => True

/-- No request of the event fails. -/
def LogSessionAction.Succeeds : LogSessionAction → Prop
  | event e => ∀ n, e.env.outcome n = .success
  | readLog => True

/-! ## The simulation -/

/-- The session is in the state `l` of the log. -/
structure SessionSim (hva : U64) (s : LogSession) (l : LogSystem) : Prop where
  driver : l.driver = s.driver
  lines : l.lines = s.lines
  opened : s.handler.gLogDataHva = some hva
  shared : s.driver.logDataGva = .live (s.handler.fw.hostLog hva)

/-- **The area after an event**: the record is appended to the buffer of its CPU. -/
theorem logged_of_reportEvent (debug : Bool) {s : HandlerState} {hva : U64}
    (hopen : s.gLogDataHva = some hva) {e : Event} (he : ¬ e.StartsLog) :
    (reportEvent debug s e).gLogDataHva = some hva ∧
      (reportEvent debug s e).fw.hostLog hva =
        run appendRecord (s.fw.hostLog hva) (loggedBy debug s e) := by
  have hview : ∀ {v : LogView}, (reportEvent debug s e).logView = v →
      (reportEvent debug s e).gLogDataHva = v.gLogDataHva ∧
        (reportEvent debug s e).logEvents = v.logEvents ∧
        (reportEvent debug s e).fw.hostLog = v.hostLog := fun hv => hv ▸ ⟨rfl, rfl, rfl⟩
  unfold loggedBy
  rcases logsAtMostOnce_reportEvent debug s he with hv | hv
  · obtain ⟨hhva, hevents, harea⟩ := hview hv
    have hsame : (reportEvent debug s e).logEvents = s.logEvents := hevents
    rw [if_pos hsame, hhva, harea]
    exact ⟨hopen, rfl⟩
  · obtain ⟨hhva, hevents, harea⟩ := hview hv
    have hcalled : ¬ (reportEvent debug s e).logEvents = s.logEvents := by
      rw [hevents]
      exact List.cons_ne_self _ _
    rw [if_neg hcalled, hhva, harea]
    refine ⟨hopen, ?_⟩
    have hreason : (s.entered e.env).logView.reason = e.env.vmexitReason := rfl
    unfold LogView.logged
    rw [area_entered, hopen, hreason]
    by_cases hmask : logMasked e.env = true
    · rw [if_pos hmask, if_pos hmask]
      rfl
    · rw [if_neg hmask, if_neg hmask]
      exact Function.update_self _ _ _

/-- Appends to the log, as actions. -/
theorem run_append_records (l : LogSystem) {area : LogArea} (h : l.driver.logDataGva = .live area)
    (records : List (Nat × LogRecord)) :
    let l' := run logStep l (records.map fun r => .append r.1 r.2)
    l'.driver = { l.driver with logDataGva := .live (run appendRecord area records) } ∧
      l'.lines = l.lines := by
  induction records generalizing l area with
  | nil =>
    refine ⟨?_, rfl⟩
    rw [run_nil, ← h]
    rfl
  | cons r records ih =>
    have hstep : logStep l (.append r.1 r.2) =
        { l with
          driver := { l.driver with logDataGva := .live (appendRecord area r) }
          records := Function.update l.records r.1 (l.records r.1 ++ [r.2]) } := by
      unfold logStep
      rw [h]
    rw [List.map_cons, run_cons, hstep]
    exact ih _ rfl

/-- **One action** of the session is matched by the actions of the log. -/
theorem simulates_logSystem (debug : Bool) (hva : U64) (numOfCpus : U32) :
    Simulates (logSessionStep debug hva) logStep (LogSession.actionsBy debug)
      (fun _ a => a.Undisturbed numOfCpus) (SessionSim hva) := by
  intro s l a h hok
  cases a with
  | event e =>
    obtain ⟨hopen, harea⟩ := logged_of_reportEvent debug h.opened hok.1
    have hlive : l.driver.logDataGva = .live (s.handler.fw.hostLog hva) := h.driver ▸ h.shared
    obtain ⟨hdriver, hlines⟩ := run_append_records l hlive (loggedBy debug s.handler e)
    have hwith : s.driver.withArea ((reportEvent debug s.handler e).fw.hostLog hva) =
        { s.driver with
          logDataGva := .live ((reportEvent debug s.handler e).fw.hostLog hva) } := by
      unfold LogDriver.withArea
      rw [h.shared]
    refine ⟨?_, hlines.trans h.lines, hopen, ?_⟩
    · change _ = s.driver.withArea _
      rw [hwith, harea, ← h.driver]
      exact hdriver
    · change (s.driver.withArea _).logDataGva = _
      rw [hwith]
      rfl
  | readLog =>
    have hdump : run logStep l (s.actionsBy debug .readLog) = logStep l .dump := rfl
    rw [hdump]
    unfold logStep logSessionStep
    simp only
    rw [h.driver]
    cases hresult : dumpLog (true, true) s.driver with
    | none => exact h
    | some result =>
      refine ⟨rfl, congrArg (· ++ result.lines) h.lines, h.opened, ?_⟩
      exact (logDataGva_dumpLog hresult).trans h.shared

/-- The session after the load is the log at start. -/
theorem LoadAccepted.sessionSim {answers : LoadAnswers} {info : EventInfo} {env : Surroundings}
    (h : LoadAccepted answers info env) (debug : Bool) {s : HandlerState}
    (hinit : s.gBInitStatus = true) :
    SessionSim (logAreaHva answers info env) (LogSession.load debug answers info env s)
      (.init answers.numOnlineCpus) := by
  obtain ⟨hdriver, hlines, hopen, harea, -⟩ := h.load debug hinit
  refine ⟨hdriver.symm, hlines.symm, hopen, ?_⟩
  rw [hdriver, harea]
  exact initLog_area _ _

/-! ## The records of a run -/

/-- The records among the actions of a step. -/
theorem LogSession.appended_actionsBy (debug : Bool) (s : LogSession) (a : LogSessionAction) :
    (s.actionsBy debug a).filterMap LogAction.appended = s.recordsBy debug a := by
  cases a with
  | event e =>
    change ((loggedBy debug s.handler e).map _).filterMap _ = loggedBy debug s.handler e
    rw [List.filterMap_map]
    exact List.filterMap_some
  | readLog => rfl

/-- A step is at most one action of the log. -/
theorem LogSession.length_actionsBy_le (debug : Bool) (s : LogSession) (a : LogSessionAction) :
    (s.actionsBy debug a).length ≤ 1 := by
  cases a with
  | event e =>
    change ((loggedBy debug s.handler e).map _).length ≤ 1
    rw [List.length_map]
    unfold loggedBy
    split
    · exact Nat.zero_le 1
    · split
      · exact Nat.zero_le 1
      · exact le_refl 1
  | readLog => exact le_refl 1

/-! ## The two programs simulate the log -/

/-- **The session after a run**, and the log after its appends and dumps. -/
theorem LoadAccepted.sessionSim_run {answers : LoadAnswers} {info : EventInfo} {env : Surroundings}
    (h : LoadAccepted answers info env) (debug : Bool) {s : HandlerState}
    (hinit : s.gBInitStatus = true) {actions : List LogSessionAction}
    (hok : ∀ a ∈ actions, a.Undisturbed answers.numOnlineCpus) :
    let step := logSessionStep debug (logAreaHva answers info env)
    let loaded := LogSession.load debug answers info env s
    let l := run logStep (.init answers.numOnlineCpus)
      (trace step (LogSession.actionsBy debug) loaded actions)
    SessionSim (logAreaHva answers info env) (run step loaded actions) l ∧
      ∀ c, l.records c = recordsOf c (trace step (LogSession.recordsBy debug) loaded actions) := by
  intro step loaded l
  have hsim := simulates_logSystem debug (logAreaHva answers info env) answers.numOnlineCpus
  have hacts : (fun s a => (LogSession.actionsBy debug s a).filterMap LogAction.appended) =
      LogSession.recordsBy debug := by
    funext s a
    exact s.appended_actionsBy debug a
  refine ⟨hsim.run actions (h.sessionSim debug hinit)
    (steps_of_forall (fun _ _ h => h) actions hok),
    fun c => ?_⟩
  rw [records_run c _ ⟨_, initLog_area _ _⟩, filterMap_trace, hacts]
  exact List.nil_append _

/-- **Driver and handler are the log.** The driver has allocated the area and the handler has
accepted its message; whatever events follow on the CPUs that have a buffer, but for another message
that starts the log (`Event.StartsLog`), and whatever fails for them, in any order with reads of
`log.txt`: the driver, its area included, and the records reported are those of the log alone, under
the appends of the events that logged and the dumps. After another start the records go elsewhere.
-/
theorem session_refines_log (debug : Bool) {answers : LoadAnswers} {info : EventInfo}
    {env : Surroundings} (haccept : LoadAccepted answers info env) {s : HandlerState}
    (hinit : s.gBInitStatus = true) {actions : List LogSessionAction}
    (hok : ∀ a ∈ actions, a.Undisturbed answers.numOnlineCpus) :
    let step := logSessionStep debug (logAreaHva answers info env)
    let loaded := LogSession.load debug answers info env s
    let l := run logStep (.init answers.numOnlineCpus)
      (trace step (LogSession.actionsBy debug) loaded actions)
    (run step loaded actions).driver = l.driver ∧ (run step loaded actions).lines = l.lines ∧
      ∀ c, l.records c = recordsOf c (trace step (LogSession.recordsBy debug) loaded actions) := by
  intro step loaded l
  obtain ⟨hsim, hrecords⟩ := haccept.sessionSim_run debug hinit hok
  exact ⟨hsim.driver.symm, hsim.lines.symm, hrecords⟩

theorem LoadAnswers.loadAccepted_cooperative : LoadAccepted .cooperative ⟨0, 0, 0⟩ .cooperative :=
  ⟨rfl, fun _ _ => rfl, by decide⟩

/-- A write to a page that is not writable. -/
def writeViolationEvent (rip : U64) : Event :=
  ⟨.cooperative, ⟨0, 0, rip⟩, .mem ⟨⟨true, false, true⟩, ⟨false, true, false⟩⟩⟩

/-- Two violations with a read in between. -/
def violationReadViolation : List LogSessionAction :=
  [.event (writeViolationEvent 1), .readLog, .event (writeViolationEvent 2)]

theorem forall_mem_violationReadViolation {P : LogSessionAction → Prop}
    (hevent : ∀ rip, P (.event (writeViolationEvent rip))) (hread : P .readLog) :
    ∀ a ∈ violationReadViolation, P a := by
  intro a ha
  simp only [violationReadViolation, List.mem_cons, List.not_mem_nil, or_false] at ha
  rcases ha with rfl | rfl | rfl
  · exact hevent 1
  · exact hread
  · exact hevent 2

theorem undisturbed_violationReadViolation :
    ∀ a ∈ violationReadViolation, a.Undisturbed 1 :=
  forall_mem_violationReadViolation
    (fun _ => ⟨fun ⟨_, hmsg, _⟩ => (by cases hmsg), Nat.zero_lt_one⟩) trivial

/-- The refinement at two violations and a read. -/
theorem session_refines_log_two :
    let step := logSessionStep false (logAreaHva .cooperative ⟨0, 0, 0⟩ .cooperative)
    let loaded := LogSession.load false .cooperative ⟨0, 0, 0⟩ .cooperative
      (handlerInitialize (.boot .atBoot))
    let actions := violationReadViolation
    let l := run logStep (.init 1) (trace step (LogSession.actionsBy false) loaded actions)
    (run step loaded actions).driver = l.driver ∧ (run step loaded actions).lines = l.lines ∧
      ∀ c, l.records c = recordsOf c (trace step (LogSession.recordsBy false) loaded actions) :=
  session_refines_log false LoadAnswers.loadAccepted_cooperative rfl
    undisturbed_violationReadViolation

/-! ## The audit trail -/

/-- Where no request of an event fails, what is logged is what the policy says. -/
theorem loggedBy_eq_auditedBy (debug : Bool) {s : HandlerState} {m : PolicyMap} (h : Refines s m)
    {e : Event} (hok : ∀ n, e.env.outcome n = .success) :
    loggedBy debug s e = auditedBy s e := by
  have hevents := logEvents_reportEvent debug h hok
  unfold loggedBy auditedBy
  by_cases haudit : Audited s e
  · have hcalled : ¬ (reportEvent debug s e).logEvents = s.logEvents := by
      rw [hevents, if_pos haudit]
      exact List.cons_ne_self _ _
    rw [if_neg hcalled, if_pos haudit]
  · rw [if_neg haudit] at hevents
    rw [if_pos hevents, if_neg haudit]

/-- A step of the session keeps the policy of the handler in its refinement. -/
theorem refines_logSessionStep (debug : Bool) (hva : U64) {s : LogSession}
    (h : ∃ m, Refines s.handler m) (a : LogSessionAction) :
    ∃ m, Refines (logSessionStep debug hva s a).handler m := by
  cases a with
  | event e =>
    obtain ⟨m, hm⟩ := h
    exact ⟨_, hm.reportEvent debug e⟩
  | readLog =>
    unfold logSessionStep
    simp only
    split
    · exact h
    · exact h

/-- The log as the policy has it after a session: the driver and the lines of the session, and for
each CPU the records of the events that are `Audited` and not masked. -/
def LogSession.trail (debug : Bool) (hva : U64) (s : LogSession)
    (actions : List LogSessionAction) : LogSystem :=
  let s' := run (logSessionStep debug hva) s actions
  ⟨s'.driver, fun c =>
    recordsOf c (trace (logSessionStep debug hva) LogSession.auditedRecordsBy s actions), s'.lines⟩

/-- No gap loses records in fewer than `2 ^ 32` actions. -/
theorem LogSession.gapFits_trail (debug : Bool) (hva : U64) (s : LogSession)
    {actions : List LogSessionAction} (hfew : actions.length < 2 ^ 32) (c : Nat) :
    GapFits ((s.trail debug hva actions).records c).length
      ((s.trail debug hva actions).resume c) := by
  have hone : ∀ (s : LogSession) a, (s.auditedRecordsBy a).length ≤ 1 := by
    intro s a
    cases a with
    | event e =>
      change (auditedBy s.handler e).length ≤ 1
      unfold auditedBy
      split
      · split
        · exact Nat.zero_le 1
        · exact le_refl 1
      · exact Nat.zero_le 1
    | readLog => exact Nat.zero_le 1
  have hlength : ((s.trail debug hva actions).records c).length ≤ actions.length :=
    (length_recordsOf_le c _).trans (length_trace_le hone actions)
  exact Or.inl (by omega)

end IkgtUsage
