import IkgtUsage.Handler.CrFilter
import IkgtUsage.Handler.Event

/-!
# What an event leaves alone

`PolicyFrame s s'` says that going from `s` to `s'` left the policy as it was: the same table up to
access counts, the same immutability, and no new monitoring call. Every function of the handler but
the two policy messages and `handle_msg_policy_make_immutable` is such a frame step, on every path
and whatever the framework answers.

`reportEvent_cases` is the inversion lemma of the handler: an event is a frame step, or it is a
delivered ENABLE, DISABLE or MAKE_IMMUTABLE message to a handler that is not yet immutable.
-/

namespace IkgtUsage

open Framework Lib

/-! ## The framework -/

/-- The monitoring calls made so far, newest first. -/
def Framework.monitorCalls (fw : Framework) : List (ServiceCall × IkgtStatus) :=
  fw.calls.filter fun c => c.1.isMonitor

/-- No register and no monitoring changed; the event is still the same. -/
structure Framework.Quiet (fw fw' : Framework) : Prop where
  reg : fw'.reg = fw.reg
  monitors : fw'.monitorCalls = fw.monitorCalls
  env : fw'.env = fw.env

namespace Framework.Quiet

variable {fw fw' fw'' : Framework}

theorem refl (fw : Framework) : Quiet fw fw := ⟨rfl, rfl, rfl⟩

theorem trans (h : Quiet fw fw') (h' : Quiet fw' fw'') : Quiet fw fw'' :=
  ⟨h'.reg.trans h.reg, h'.monitors.trans h.monitors, h'.env.trans h.env⟩

theorem tick (fw : Framework) : Quiet fw fw.tick := ⟨rfl, rfl, rfl⟩

theorem readGuestReg (regId : VmcsReg) (fw : Framework) :
    Quiet fw (readGuestReg regId fw).2.2 := by
  simp only [IkgtUsage.readGuestReg, ikgtMalloc, ikgtReadGuestRegisters, decide_eq_true_eq]
  split
  · exact (tick _).trans (tick _)
  · exact tick _

/-- A service that does not monitor. -/
theorem callService {call : ServiceCall} (h : call.isMonitor = false) (fw : Framework) :
    Quiet fw (callService call fw).2 :=
  ⟨rfl, by simp [Framework.monitorCalls, Framework.callService, Framework.tick, h], rfl⟩

theorem translatePages (permission : U32) :
    ∀ (pages : Nat) (startAddr : U64) (items : List PageItem) (fw : Framework),
      Quiet fw (translatePages permission pages startAddr items fw).2.2
  | 0, _, _, fw => refl fw
  | pages + 1, startAddr, items, fw => by
    simp only [IkgtUsage.translatePages]
    split
    · exact (tick fw).trans (translatePages permission pages _ _ _)
    · exact tick fw

theorem updatePages (permission : U32) (pages : Nat) (startAddr : U64) (fw : Framework) :
    Quiet fw (updatePages permission pages startAddr fw).2 := by
  have ht := translatePages permission pages startAddr [] fw
  unfold IkgtUsage.updatePages
  generalize IkgtUsage.translatePages permission pages startAddr [] fw = r at ht ⊢
  obtain ⟨status, items, fw'⟩ := r
  simp only at ht ⊢
  split
  · exact ht.trans (callService rfl fw')
  · exact ht

theorem utilMonitorMemory (startAddr : U64) (size permission : U32) (fw : Framework) :
    Quiet fw (utilMonitorMemory startAddr size permission fw).2 := by
  simp only [IkgtUsage.utilMonitorMemory, ikgtMalloc, Bool.not_eq_true', decide_eq_false_iff_not]
  split
  · exact refl fw
  · split
    · exact tick fw
    · split
      · exact (tick fw).trans (tick _)
      · exact ((tick fw).trans (tick _)).trans (updatePages permission _ _ _)

theorem monitorMemoryBlocks (permission : U32) :
    ∀ (rounds : Nat) (startAddr : U64) (size : U32) (status : IkgtStatus) (fw : Framework),
      Quiet fw (monitorMemoryBlocks permission rounds startAddr size status fw).2
  | 0, _, _, _, fw => refl fw
  | rounds + 1, startAddr, size, status, fw => by
    simp only [IkgtUsage.monitorMemoryBlocks]
    split
    · exact refl fw
    · split
      · exact (utilMonitorMemory _ _ _ fw).trans (monitorMemoryBlocks permission rounds _ _ _ _)
      · exact utilMonitorMemory _ _ _ fw

theorem utilMonitorMemoryEx (startAddr : U64) (size permission : U32) (fw : Framework) :
    Quiet fw (utilMonitorMemoryEx startAddr size permission fw).2 :=
  monitorMemoryBlocks permission _ _ _ _ fw

end Framework.Quiet

/-- A register write makes no monitoring call. -/
theorem monitorCalls_writeGuestReg (regId : VmcsReg) (value : U64) (fw : Framework) :
    (writeGuestReg regId value fw).2.monitorCalls = fw.monitorCalls := by
  simp only [writeGuestReg, ikgtMalloc, decide_eq_true_eq]
  split
  · simp only [ikgtWriteGuestRegisters]
    split <;> simp [Framework.monitorCalls, setReg, tick, ServiceCall.isMonitor]
  · rfl

/-! ## The handler -/

/-- An entry without its access count. -/
def PolicyEntry.withoutCount (e : PolicyEntry) : PolicyEntry := { e with accessCount := 0 }

/-- The policy of `s'` is that of `s`, up to access counts. -/
structure PolicyFrame (s s' : HandlerState) : Prop where
  init : s'.gBInitStatus = s.gBInitStatus
  immutable : s'.gPolicyImmutable = s.gPolicyImmutable
  numEntries : s'.gPolicyTable.map PolicyTable.numEntries =
    s.gPolicyTable.map PolicyTable.numEntries
  slots : s'.slots.map PolicyEntry.withoutCount = s.slots.map PolicyEntry.withoutCount
  monitors : s'.fw.monitorCalls = s.fw.monitorCalls

namespace PolicyFrame

variable {s s' s'' : HandlerState}

theorem refl (s : HandlerState) : PolicyFrame s s := ⟨rfl, rfl, rfl, rfl, rfl⟩

theorem trans (h : PolicyFrame s s') (h' : PolicyFrame s' s'') : PolicyFrame s s'' :=
  ⟨h'.init.trans h.init, h'.immutable.trans h.immutable, h'.numEntries.trans h.numEntries,
    h'.slots.trans h.slots, h'.monitors.trans h.monitors⟩

/-- Changing the framework without a monitoring call. -/
theorem ofFw {fw : Framework} (h : fw.monitorCalls = s.fw.monitorCalls) :
    PolicyFrame s { s with fw := fw } := ⟨rfl, rfl, rfl, rfl, h⟩

/-- Updating the slots in place, access counts only. -/
theorem withSlots {slots : List PolicyEntry}
    (h : slots.map PolicyEntry.withoutCount = s.slots.map PolicyEntry.withoutCount) :
    PolicyFrame s (s.withSlots slots) := by
  cases ht : s.gPolicyTable with
  | none =>
    have hsame : s.withSlots slots = s := by
      unfold HandlerState.withSlots
      rw [ht, Option.map_none]
      cases s
      simp_all
    rw [hsame]
    exact refl s
  | some t =>
    have hslots : s.slots = t.policyEntry := by simp [HandlerState.slots, ht]
    have hlen : slots.length = t.policyEntry.length := by
      have := congrArg List.length h
      rwa [List.length_map, List.length_map, hslots] at this
    have hs' : s.withSlots slots = { s with gPolicyTable := some (t.withSlots slots hlen) } := by
      unfold HandlerState.withSlots
      rw [ht, Option.map_some, PolicyTable.replaceSlots, dif_pos hlen]
    rw [hs']
    exact ⟨rfl, rfl, by rw [ht]; rfl, h, rfl⟩

theorem logEvent (threadId rip : U64) (s : HandlerState) :
    PolicyFrame s (logEvent threadId rip s) := by
  unfold IkgtUsage.logEvent
  simp only
  split
  · exact ⟨rfl, rfl, rfl, rfl, rfl⟩
  · split
    · exact ⟨rfl, rfl, rfl, rfl, rfl⟩
    · exact ⟨rfl, rfl, rfl, rfl, rfl⟩

theorem startLog (viewHandle : U32) (msg : LogMessage) (s : HandlerState) :
    PolicyFrame s (startLog viewHandle msg s) := by
  unfold IkgtUsage.startLog
  simp only
  split
  · exact refl s
  · split
    · exact ⟨rfl, rfl, rfl, rfl, rfl⟩
    · split
      · exact ⟨rfl, rfl, rfl, rfl, rfl⟩
      · exact ⟨rfl, rfl, rfl, rfl, (Quiet.utilMonitorMemoryEx _ _ _ _).monitors⟩

/-- The loop of a control register write changes access counts only. -/
theorem crPolicyLoop (k : ControlReg) (slots : List PolicyEntry) (ctx : PolicyCrCtx) :
    (crPolicyLoop k slots ctx).1.map PolicyEntry.withoutCount =
      slots.map PolicyEntry.withoutCount := by
  rw [crPolicyLoop_slots, List.map_map]
  refine List.map_congr_left fun e _ => ?_
  simp only [Function.comp_apply]
  split <;> rfl

theorem filterCrWrite (k : ControlReg) (ev : EventInfo) (operandRegId : VmcsReg)
    (curCrValue newCrValue : U64) (s : HandlerState) :
    PolicyFrame s (filterCrWrite k ev operandRegId curCrValue newCrValue s) := by
  unfold IkgtUsage.filterCrWrite
  simp only
  split
  · exact refl s
  · have hslots := withSlots
      (crPolicyLoop k s.slots ⟨newCrValue, curCrValue, curCrValue ^^^ newCrValue, false⟩)
    generalize IkgtUsage.crPolicyLoop k s.slots _ = r at hslots ⊢
    obtain ⟨slots, ctx⟩ := r
    simp only at hslots ⊢
    have hlog : PolicyFrame s
        (if ctx.log = true then IkgtUsage.logEvent ev.threadId ev.rip (s.withSlots slots)
          else s.withSlots slots) := by
      split
      · exact hslots.trans (logEvent _ _ _)
      · exact hslots
    split
    · exact hlog.trans ⟨rfl, rfl, rfl, rfl, rfl⟩
    · exact hlog.trans ⟨rfl, rfl, rfl, rfl, monitorCalls_writeGuestReg _ _ _⟩

/-- Another response. -/
theorem respond (response : IkgtEventResponse) (s : HandlerState) :
    PolicyFrame s { s with response := response } := ⟨rfl, rfl, rfl, rfl, rfl⟩

theorem readGuestReg (regId : VmcsReg) (s : HandlerState) :
    PolicyFrame s { s with fw := (readGuestReg regId s.fw).2.2 } :=
  ofFw (Quiet.readGuestReg regId s.fw).monitors

theorem handleCrEvent (k : ControlReg) (ev : EventInfo) (cpuinfo : CpuEventInfo)
    (s : HandlerState) : PolicyFrame s (handleCrEvent k ev cpuinfo s) := by
  unfold IkgtUsage.handleCrEvent
  simp only
  split
  · exact respond _ s
  · have hcur := (respond .allow s).trans (readGuestReg k.vmcsReg { s with response := .allow })
    split
    · exact hcur
    · split
      · exact hcur
      · rename_i operandRegId _
        have hnew := hcur.trans (readGuestReg operandRegId _)
        split
        · exact hnew
        · exact hnew.trans (filterCrWrite k ev operandRegId _ _ _)

theorem msrPolicyLoop (ev : EventInfo) (ctx : PolicyMsrCtx) (s : HandlerState) :
    PolicyFrame s (msrPolicyLoop ev ctx s) := by
  unfold IkgtUsage.msrPolicyLoop
  split
  · exact refl s
  · rename_i entry _
    simp only
    have hlog : PolicyFrame s
        (if entry.wHasLog = true then IkgtUsage.logEvent ev.threadId ev.rip s else s) := by
      split
      · exact logEvent _ _ s
      · exact refl s
    refine (hlog.trans (respond _ _)).trans (withSlots ?_)
    exact map_updateFirst (f := PolicyEntry.incAccessCount) (fun _ _ => rfl) _

theorem filterMsrWrite (ev : EventInfo) (rax rcx rdx : U64) (s : HandlerState) :
    PolicyFrame s (filterMsrWrite ev rax rcx rdx s) := by
  unfold IkgtUsage.filterMsrWrite
  split
  · exact refl s
  · rename_i reg _
    simp only
    split
    · exact readGuestReg reg s
    · exact (readGuestReg reg s).trans (msrPolicyLoop ev _ _)

theorem handleMsrEvent (ev : EventInfo) (s : HandlerState) :
    PolicyFrame s (handleMsrEvent ev s) := by
  have hrax := (respond .allow s).trans (readGuestReg (.gp .rax) _)
  have hrcx := hrax.trans (readGuestReg (.gp .rcx) _)
  have hrdx := hrcx.trans (readGuestReg (.gp .rdx) _)
  unfold IkgtUsage.handleMsrEvent
  simp only
  split
  · exact hrax
  · split
    · exact hrcx
    · split
      · exact hrdx
      · exact hrdx.trans (filterMsrWrite ev _ _ _ _)

theorem handleMemoryEvent (ev : EventInfo) (meminfo : MemEventInfo) (s : HandlerState) :
    PolicyFrame s (handleMemoryEvent ev meminfo s) := by
  unfold IkgtUsage.handleMemoryEvent
  simp only
  split
  · exact respond _ s
  · exact respond _ s
  · exact respond _ s
  · exact (respond _ s).trans (logEvent _ _ _)
  · exact respond _ s

theorem handleCpuEvent (ev : EventInfo) (cpuinfo : CpuEventInfo) (s : HandlerState) :
    PolicyFrame s (handleCpuEvent ev cpuinfo s) := by
  unfold IkgtUsage.handleCpuEvent
  split
  · exact respond _ s
  · split
    · exact handleCrEvent cr0 ev cpuinfo s
    · exact handleCrEvent cr4 ev cpuinfo s
    · exact refl s
  · exact handleMsrEvent ev s
  · exact refl s

end PolicyFrame

/-! ## Messages -/

/-- What a message asks of the policy. -/
inductive PolicyCommand
  | enable (msg : PolicyUpdateRec)
  | disable (msg : PolicyUpdateRec)
  | makeImmutable
  deriving DecidableEq, Repr

/-- The policy command of a message, if it is one. -/
def PolicyMessage.policyCommand (debug : Bool) (msg : PolicyMessage) : Option PolicyCommand :=
  if msg.command = CommandCode.policyEntryEnable.code then some (.enable msg.policyData)
  else if msg.command = CommandCode.policyEntryDisable.code then some (.disable msg.policyData)
  else if msg.command = CommandCode.policyMakeImmutable.code then some .makeImmutable
  else if debug ∧ msg.command = CommandCode.policyDebug.code ∧ msg.debugParam.parameter = 400 then
    some .makeImmutable
  else none

/-- What a command does to a handler that is not immutable. -/
def PolicyCommand.apply : PolicyCommand → HandlerState → HandlerState
  | enable msg, s => (policyMsgAdd msg s).2
  | disable msg, s => (policyMsgDel msg s).2
  | makeImmutable, s => { s with gPolicyImmutable := true }

/-- **The dispatch of a message**: it starts the log, or runs its policy command unless the policy
is immutable, or does nothing. -/
theorem dispatchMsg_eq (debug : Bool) (ev : EventInfo) (msg : PolicyMessage) (s : HandlerState) :
    dispatchMsg debug ev msg s =
      if msg.command = CommandCode.policyInitLog.code then startLog ev.viewHandle msg.logParam s
      else
        match msg.policyCommand debug with
        | some c => if s.gPolicyImmutable then s else c.apply s
        | none => s := by
  unfold dispatchMsg PolicyMessage.policyCommand
  by_cases hlog : msg.command = CommandCode.policyInitLog.code
  · rw [if_pos hlog, if_pos hlog]
  rw [if_neg hlog, if_neg hlog]
  by_cases henable : msg.command = CommandCode.policyEntryEnable.code
  · rw [if_pos henable, if_pos henable]
    rfl
  rw [if_neg henable, if_neg henable]
  by_cases hdisable : msg.command = CommandCode.policyEntryDisable.code
  · rw [if_pos hdisable, if_pos hdisable]
    rfl
  rw [if_neg hdisable, if_neg hdisable]
  by_cases himm : msg.command = CommandCode.policyMakeImmutable.code
  · rw [if_pos himm, if_pos himm]
    rfl
  rw [if_neg himm, if_neg himm]
  by_cases hdebug : debug ∧ msg.command = CommandCode.policyDebug.code
  · by_cases hparam : msg.debugParam.parameter = 400
    · rw [if_pos hdebug, if_pos ⟨hdebug.1, hdebug.2, hparam⟩, policyDebug, if_pos hparam]
      rfl
    · rw [if_pos hdebug, if_neg fun h => hparam h.2.2, policyDebug, if_neg hparam]
  · rw [if_neg hdebug, if_neg fun h => hdebug ⟨h.1, h.2.1⟩]

/-- A policy command is not the command that starts the log. -/
theorem PolicyMessage.policyCommand_initLog {debug : Bool} {msg : PolicyMessage}
    (h : msg.command = CommandCode.policyInitLog.code) : msg.policyCommand debug = none := by
  unfold policyCommand
  rw [h, if_neg (by decide), if_neg (by decide), if_neg (by decide)]
  exact if_neg fun hdebug => absurd hdebug.2.1 (by decide)

/-! ## Events -/

/-- The policy command an event delivers to the handler. -/
def Event.policyCommand (debug : Bool) (e : Event) : Option PolicyCommand :=
  match e.data with
  | .msg content =>
    if e.env.outcome 0 = .success ∧ e.env.outcome 1 = .success then content.policyCommand debug
    else none
  | _ => none

/-- The handler when an event has come in. -/
def HandlerState.entered (s : HandlerState) (env : Surroundings) : HandlerState :=
  { s with response := .allow, fw := s.fw.enter env }

/-- The handler when a message has been copied in. -/
def HandlerState.received (s : HandlerState) (e : Event) : HandlerState :=
  { s with response := .allow, fw := (s.fw.enter e.env).tick.tick }

/-- A message event: the buffer is allocated, then the message is copied into it. -/
theorem handleMsgEvent_entered (debug : Bool) (e : Event) (content : PolicyMessage)
    (s : HandlerState) :
    handleMsgEvent debug e.info content (s.entered e.env) =
      if e.env.outcome 0 = .success then
        if e.env.outcome 1 = .success then dispatchMsg debug e.info content (s.received e)
        else s.received e
      else { s with response := .allow, fw := (s.fw.enter e.env).tick } := by
  have h0 : (s.fw.enter e.env).nextOutcome = e.env.outcome 0 := rfl
  have h1 : (s.fw.enter e.env).tick.nextOutcome = e.env.outcome 1 := rfl
  simp only [handleMsgEvent, ikgtMalloc, h0, h1, HandlerState.entered, HandlerState.received]
  by_cases hmalloc : e.env.outcome 0 = .success
  · by_cases hcopy : e.env.outcome 1 = .success
    · simp [hmalloc, hcopy]
    · simp [hmalloc, hcopy]
  · simp [hmalloc]

/-- An event of an initialised handler. -/
theorem reportEvent_eq {s : HandlerState} (hinit : s.gBInitStatus = true) (debug : Bool)
    (e : Event) :
    reportEvent debug s e =
      match e.data with
      | .mem meminfo => handleMemoryEvent e.info meminfo (s.entered e.env)
      | .cpu cpuinfo => handleCpuEvent e.info cpuinfo (s.entered e.env)
      | .msg content => handleMsgEvent debug e.info content (s.entered e.env)
      | .other _ => s.entered e.env := by
  have hrun : ¬ (!s.gBInitStatus) = true := by simp [hinit]
  exact if_neg hrun

/-- An event of a handler that is not initialised. -/
theorem reportEvent_off {s : HandlerState} (hoff : ¬ s.gBInitStatus = true) (debug : Bool)
    (e : Event) : reportEvent debug s e = s.entered e.env := by
  have hstop : (!s.gBInitStatus) = true := by simpa using hoff
  exact if_pos hstop

/-- **What an event does to the policy.** It runs the policy command it delivers, or it is a frame
step. -/
theorem reportEvent_cases (debug : Bool) (s : HandlerState) (e : Event) :
    (∃ c, e.policyCommand debug = some c ∧ s.gBInitStatus = true ∧ s.gPolicyImmutable = false ∧
      reportEvent debug s e = c.apply (s.received e)) ∨
    ((e.policyCommand debug = none ∨ s.gBInitStatus = false ∨ s.gPolicyImmutable = true) ∧
      PolicyFrame s (reportEvent debug s e)) := by
  have henter : PolicyFrame s (s.entered e.env) := ⟨rfl, rfl, rfl, rfl, rfl⟩
  have hreceived : PolicyFrame s (s.received e) := ⟨rfl, rfl, rfl, rfl, rfl⟩
  by_cases hinit : s.gBInitStatus = false
  · have hstop : (!s.gBInitStatus) = true := by simp [hinit]
    have heq : reportEvent debug s e = s.entered e.env := if_pos hstop
    exact Or.inr ⟨Or.inr (Or.inl hinit), heq ▸ henter⟩
  rw [Bool.not_eq_false] at hinit
  rw [reportEvent_eq hinit]
  obtain ⟨env, info, data⟩ := e
  cases data with
  | mem meminfo => exact Or.inr ⟨Or.inl rfl, henter.trans (.handleMemoryEvent _ _ _)⟩
  | cpu cpuinfo => exact Or.inr ⟨Or.inl rfl, henter.trans (.handleCpuEvent _ _ _)⟩
  | other type => exact Or.inr ⟨Or.inl rfl, henter⟩
  | msg content =>
    have hmsg := handleMsgEvent_entered debug ⟨env, info, .msg content⟩ content s
    simp only [Event.policyCommand] at hmsg ⊢
    rw [hmsg]
    by_cases hmalloc : env.outcome 0 = .success
    swap
    · rw [if_neg hmalloc, if_neg fun h => hmalloc h.1]
      exact Or.inr ⟨Or.inl rfl, henter.trans (.ofFw rfl)⟩
    by_cases hcopy : env.outcome 1 = .success
    swap
    · rw [if_pos hmalloc, if_neg hcopy, if_neg fun h => hcopy h.2]
      exact Or.inr ⟨Or.inl rfl, hreceived⟩
    rw [if_pos hmalloc, if_pos hcopy, if_pos ⟨hmalloc, hcopy⟩, dispatchMsg_eq]
    by_cases hlog : content.command = CommandCode.policyInitLog.code
    · rw [if_pos hlog]
      exact Or.inr ⟨Or.inl (PolicyMessage.policyCommand_initLog hlog),
        hreceived.trans (.startLog _ _ _)⟩
    rw [if_neg hlog]
    cases hc : content.policyCommand debug with
    | none => exact Or.inr ⟨Or.inl rfl, hreceived⟩
    | some c =>
      have himm : (s.received ⟨env, info, .msg content⟩).gPolicyImmutable =
          s.gPolicyImmutable := rfl
      simp only [himm]
      by_cases hi : s.gPolicyImmutable = true
      · rw [if_pos hi]
        exact Or.inr ⟨Or.inr (Or.inr hi), hreceived⟩
      · rw [if_neg hi]
        exact Or.inl ⟨c, rfl, hinit, by simpa using hi, rfl⟩

end IkgtUsage
