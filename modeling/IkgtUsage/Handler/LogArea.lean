import IkgtUsage.Handler.Outcome
import IkgtUsage.Lib.Run

/-!
# Whether logging stays inside the log area

`log_event` finds the buffer of a CPU by the thread id alone and the entry in it by the head, which
the guest can write. `start_log` takes whatever size the message says. `LogView.accesses` are the
entries a call touches; they lie inside the area for all CPUs and all heads exactly if the size is
enough for the buffers of all CPUs (`logging_in_bounds_iff`).
-/

namespace IkgtUsage

open Framework Lib

/-! ## What `log_event` works on -/

/-- The part of the state that `log_event` reads and writes. -/
structure LogView where
  gLogDataHva : Option U64
  logEvents : List LogEventCall
  hostLog : U64 → LogArea
  reason : VmexitReason
  masked : Bool

/-- The part of a state. -/
def HandlerState.logView (s : HandlerState) : LogView :=
  ⟨s.gLogDataHva, s.logEvents, s.fw.hostLog, s.fw.env.vmexitReason, logMasked s.fw.env⟩

namespace LogView

/-- The host address of the area that a call writes to, if it writes. -/
def area (v : LogView) : Option U64 := if v.masked then none else v.gLogDataHva

/-- The entry that `log_event` takes for entry 0 of the CPU's buffer. -/
def start (threadId : U64) : Nat := getCpuLogBufferStart (threadId.truncate 32 : U32).toNat

/-- The entries of the area that a call reads or writes: the meta entry, and the data entry that
the head in it says. -/
def accesses (v : LogView) (threadId : U64) : List Nat :=
  match v.area with
  | none => []
  | some hva =>
    [start threadId, start threadId + logSeqNumToIndex (v.hostLog hva (start threadId)).metaHead]

/-- After a call of `log_event`. -/
def logged (v : LogView) (threadId rip : U64) : LogView where
  gLogDataHva := v.gLogDataHva
  logEvents := ⟨threadId, rip⟩ :: v.logEvents
  hostLog :=
    match v.area with
    | none => v.hostLog
    | some hva => Function.update v.hostLog hva
        (logBufferAddRecord (start threadId)
          ⟨rip, v.reason.reason, v.reason.qualification, v.reason.gva⟩ (v.hostLog hva))
  reason := v.reason
  masked := v.masked

end LogView

/-- The area that an event writes to, if it logs. -/
theorem area_entered (s : HandlerState) (env : Surroundings) :
    (s.entered env).logView.area = if logMasked env then none else s.gLogDataHva := rfl

/-- `log_event` on the part. -/
theorem logView_logEvent (threadId rip : U64) (s : HandlerState) :
    (logEvent threadId rip s).logView = s.logView.logged threadId rip := by
  unfold logEvent LogView.logged LogView.area HandlerState.logView
  simp only
  by_cases hmask : logMasked s.fw.env = true
  · rw [if_pos hmask]
    simp [hmask]
  · rw [if_neg hmask]
    simp only [if_neg hmask]
    cases s.gLogDataHva <;> rfl

/-! ## Events -/

/-- Going from `s` to `s'` calls `log_event` at most once, for the thread of the event. -/
def LogsAtMostOnce (info : EventInfo) (s s' : HandlerState) : Prop :=
  s'.logView = s.logView ∨ s'.logView = s.logView.logged info.threadId info.rip

namespace LogsAtMostOnce

variable {info : EventInfo} {s s' s'' : HandlerState}

/-- A step before that does not log. -/
theorem after (hv : s'.logView = s.logView) (h : LogsAtMostOnce info s' s'') :
    LogsAtMostOnce info s s'' := by
  unfold LogsAtMostOnce at h ⊢
  rwa [hv] at h

/-- A step afterwards that does not log. -/
theorem before (h : LogsAtMostOnce info s s') (hv : s''.logView = s'.logView) :
    LogsAtMostOnce info s s'' := by
  unfold LogsAtMostOnce at h ⊢
  rwa [hv]

theorem logEvent (info : EventInfo) (s : HandlerState) :
    LogsAtMostOnce info s (logEvent info.threadId info.rip s) := Or.inr (logView_logEvent _ _ s)

theorem logView_readGuestReg (regId : VmcsReg) (s : HandlerState) :
    HandlerState.logView { s with fw := (readGuestReg regId s.fw).2.2 } = s.logView := by
  unfold HandlerState.logView readGuestReg
  simp only [ikgtMalloc, decide_eq_true_eq]
  split <;> rfl

theorem logView_writeGuestReg (regId : VmcsReg) (value : U64) (response : IkgtEventResponse)
    (s : HandlerState) :
    HandlerState.logView
      { s with fw := (writeGuestReg regId value s.fw).2, response := response } = s.logView := by
  have hwrite : (writeGuestReg regId value s.fw).2.hostLog = s.fw.hostLog ∧
      (writeGuestReg regId value s.fw).2.env = s.fw.env := by
    unfold writeGuestReg
    simp only [ikgtMalloc, decide_eq_true_eq]
    split
    · unfold ikgtWriteGuestRegisters
      simp only
      split
      · exact ⟨rfl, rfl⟩
      · exact ⟨rfl, rfl⟩
    · exact ⟨rfl, rfl⟩
  unfold HandlerState.logView
  rw [hwrite.1, hwrite.2]

theorem filterCrWrite (k : ControlReg) (info : EventInfo) (operandRegId : VmcsReg)
    (curCrValue newCrValue : U64) (s : HandlerState) :
    LogsAtMostOnce info s (filterCrWrite k info operandRegId curCrValue newCrValue s) := by
  unfold IkgtUsage.filterCrWrite
  simp only
  split
  · exact Or.inl rfl
  · generalize crPolicyLoop k s.slots _ = r
    obtain ⟨slots, ctx⟩ := r
    simp only
    have hlog : LogsAtMostOnce info s
        (if ctx.log = true then IkgtUsage.logEvent info.threadId info.rip (s.withSlots slots)
          else s.withSlots slots) := by
      split
      · exact (logEvent info (s.withSlots slots)).after rfl
      · exact Or.inl rfl
    split
    · exact hlog.before rfl
    · exact hlog.before (logView_writeGuestReg _ _ _ _)

theorem handleCrEvent (k : ControlReg) (info : EventInfo) (cpuinfo : CpuEventInfo)
    (s : HandlerState) : LogsAtMostOnce info s (handleCrEvent k info cpuinfo s) := by
  unfold IkgtUsage.handleCrEvent
  simp only
  split
  · exact Or.inl rfl
  · have hcur := logView_readGuestReg k.vmcsReg { s with response := .allow }
    split
    · exact Or.inl hcur
    · split
      · exact Or.inl hcur
      · rename_i operandRegId _
        have hnew := (logView_readGuestReg operandRegId _).trans hcur
        split
        · exact Or.inl hnew
        · exact (filterCrWrite k info operandRegId _ _ _).after hnew

theorem msrPolicyLoop (info : EventInfo) (ctx : PolicyMsrCtx) (s : HandlerState) :
    LogsAtMostOnce info s (msrPolicyLoop info ctx s) := by
  unfold IkgtUsage.msrPolicyLoop
  split
  · exact Or.inl rfl
  · rename_i entry _
    have hlog : LogsAtMostOnce info s
        (if entry.wHasLog = true then IkgtUsage.logEvent info.threadId info.rip s else s) := by
      split
      · exact logEvent info s
      · exact Or.inl rfl
    exact hlog.before rfl

theorem handleMsrEvent (info : EventInfo) (s : HandlerState) :
    LogsAtMostOnce info s (handleMsrEvent info s) := by
  have hrax := logView_readGuestReg (.gp .rax) { s with response := .allow }
  have hrcx := (logView_readGuestReg (.gp .rcx) _).trans hrax
  have hrdx := (logView_readGuestReg (.gp .rdx) _).trans hrcx
  unfold IkgtUsage.handleMsrEvent
  simp only
  split
  · exact Or.inl hrax
  · split
    · exact Or.inl hrcx
    · split
      · exact Or.inl hrdx
      · unfold filterMsrWrite
        split
        · exact Or.inl hrdx
        · rename_i reg _
          have hcur := (logView_readGuestReg reg _).trans hrdx
          simp only
          split
          · exact Or.inl hcur
          · exact (msrPolicyLoop info _ _).after hcur

theorem handleMemoryEvent (info : EventInfo) (meminfo : MemEventInfo) (s : HandlerState) :
    LogsAtMostOnce info s (handleMemoryEvent info meminfo s) := by
  unfold IkgtUsage.handleMemoryEvent
  simp only
  split
  · exact Or.inl rfl
  · exact Or.inl rfl
  · exact Or.inl rfl
  · exact (logEvent info { s with response := .allow }).after rfl
  · exact Or.inl rfl

theorem handleCpuEvent (info : EventInfo) (cpuinfo : CpuEventInfo) (s : HandlerState) :
    LogsAtMostOnce info s (handleCpuEvent info cpuinfo s) := by
  unfold IkgtUsage.handleCpuEvent
  split
  · exact Or.inl rfl
  · split
    · exact handleCrEvent cr0 info cpuinfo s
    · exact handleCrEvent cr4 info cpuinfo s
    · exact Or.inl rfl
  · exact handleMsrEvent info s
  · exact Or.inl rfl

end LogsAtMostOnce

/-- A CPU or memory event. -/
def Event.IsCpuOrMem (e : Event) : Prop :=
  match e.data with
  | .mem _ | .cpu _ => True
  | .msg _ | .other _ => False

/-- **A CPU or memory event logs at most once**, for its own thread. -/
theorem logView_reportEvent (debug : Bool) (s : HandlerState) {e : Event} (he : e.IsCpuOrMem) :
    LogsAtMostOnce e.info (s.entered e.env) (reportEvent debug s e) := by
  by_cases hinit : s.gBInitStatus = true
  · rw [reportEvent_eq hinit]
    obtain ⟨env, info, data⟩ := e
    cases data with
    | mem meminfo => exact .handleMemoryEvent info meminfo _
    | cpu cpuinfo => exact .handleCpuEvent info cpuinfo _
    | msg => exact he.elim
    | other => exact he.elim
  · have hstop : (!s.gBInitStatus) = true := by simpa using hinit
    have heq : reportEvent debug s e = s.entered e.env := if_pos hstop
    exact Or.inl (by rw [heq])

/-- The entries of the log area that an event reads or writes: those of its call of `log_event`, if
it makes one. -/
def eventAccesses (debug : Bool) (s : HandlerState) (e : Event) : List Nat :=
  if (reportEvent debug s e).logEvents = s.logEvents then []
  else (s.entered e.env).logView.accesses e.info.threadId

/-! ## The session -/

/-- What can happen once the log has started: an event, or the guest writes to the memory it shares
with the handler. -/
inductive AreaAction
  | event (e : Event)
  | guest (hostLog : U64 → LogArea)

/-- One action. -/
def areaStep (debug : Bool) (s : HandlerState) : AreaAction → HandlerState
  | .event e => reportEvent debug s e
  | .guest hostLog => { s with fw := { s.fw with hostLog := hostLog } }

/-- The events are CPU and memory events of the CPUs given to `handler_initialize`. -/
def AreaAction.OfCpus (numOfCpus : BitVec 16) : AreaAction → Prop
  | event e => e.IsCpuOrMem ∧ e.info.threadId.toNat < numOfCpus.toNat
  | guest _ => True

/-- All entries that the action makes the handler read or write end within `size` bytes. -/
def InBounds (debug : Bool) (size : U32) (s : HandlerState) : AreaAction → Prop
  | .event e => ∀ i ∈ eventAccesses debug s e, entryEnd i ≤ size.toNat
  | .guest _ => True

/-- `start_log` takes the message: both translations succeed, and not with `NULL`. -/
structure StartAccepted (viewHandle : U32) (msg : LogMessage) (s : HandlerState) : Prop where
  addr : msg.logAddr ≠ 0
  gvaToGpa : s.fw.nextOutcome = .success
  gpaToHva : s.fw.tick.nextOutcome = .success
  hva : s.fw.env.gpaToHva viewHandle (s.fw.env.gvaToGpa msg.logAddr) ≠ 0

/-- The session that is started. -/
theorem StartAccepted.gLogDataHva {viewHandle : U32} {msg : LogMessage} {s : HandlerState}
    (h : StartAccepted viewHandle msg s) :
    (startLog viewHandle msg s).gLogDataHva =
      some (s.fw.env.gpaToHva viewHandle (s.fw.env.gvaToGpa msg.logAddr)) := by
  have hgpa := h.gvaToGpa
  have hhva := h.gpaToHva
  unfold startLog
  simp only [if_neg h.addr, hgpa, hhva, ne_eq, not_true_eq_false, if_false]
  exact if_neg h.hva

theorem gBInitStatus_startLog (viewHandle : U32) (msg : LogMessage) (s : HandlerState) :
    (startLog viewHandle msg s).gBInitStatus = s.gBInitStatus :=
  (PolicyFrame.startLog viewHandle msg s).init

/-- The accesses of a thread end within the buffers of the CPUs up to it. -/
theorem entryEnd_accesses (v : LogView) (threadId : U64) {i : Nat}
    (hi : i ∈ v.accesses threadId) :
    entryEnd i ≤ (threadId.toNat + 1) * entriesPerCpu * sizeofLogEntry := by
  have htrunc : (threadId.truncate 32 : U32).toNat ≤ threadId.toNat := by
    rw [BitVec.truncate_eq_setWidth, BitVec.toNat_setWidth]
    exact Nat.mod_le _ _
  unfold LogView.accesses at hi
  split at hi
  · exact absurd hi List.not_mem_nil
  · rename_i hva _
    have hindex := logSeqNumToIndex_le (v.hostLog hva (LogView.start threadId)).metaHead
    rw [logsPerCpu_eq] at hindex
    simp only [List.mem_cons, List.not_mem_nil, or_false] at hi
    unfold LogView.start getCpuLogBufferStart at *
    unfold entryEnd
    rw [entriesPerCpu_eq] at *
    refine Nat.mul_le_mul_right _ ?_
    rcases hi with rfl | rfl <;> omega

/-- A page of the guest that is written against its permissions. -/
def writeViolation : MemEventInfo := ⟨⟨true, false, true⟩, ⟨false, true, false⟩⟩

/-- The guest puts this head into every entry. -/
def headsAt (head : U64) : AreaAction :=
  .guest fun _ _ => LogEntry.zero.withMetaHead head

/-- A write violation on a CPU. -/
def violationOn (threadId : U64) : AreaAction :=
  .event ⟨.cooperative, ⟨threadId, 0, 0⟩, .mem writeViolation⟩

/-- With the head at 202 the event touches the last entry of the CPU's buffer. -/
theorem last_entry_accessed (debug : Bool) {s : HandlerState} (hinit : s.gBInitStatus = true)
    {hva : U64} (hhva : s.gLogDataHva = some hva) (threadId : U64) :
    LogView.start threadId + logsPerCpu ∈ eventAccesses debug (areaStep debug s (headsAt 202))
      ⟨.cooperative, ⟨threadId, 0, 0⟩, .mem writeViolation⟩ := by
  have hinit' : (areaStep debug s (headsAt 202)).gBInitStatus = true := hinit
  have hlogged : (reportEvent debug (areaStep debug s (headsAt 202))
      ⟨.cooperative, ⟨threadId, 0, 0⟩, .mem writeViolation⟩).logEvents ≠
        (areaStep debug s (headsAt 202)).logEvents := by
    rw [reportEvent_eq hinit']
    change (logEvent threadId 0 _).logEvents ≠ s.logEvents
    rw [logEvents_logEvent]
    exact List.cons_ne_self _ _
  have harea : ((areaStep debug s (headsAt 202)).entered .cooperative).logView.area =
      some hva := by
    have hmask : ¬ logMasked .cooperative = true := by decide
    rw [area_entered, if_neg hmask]
    exact hhva
  unfold eventAccesses
  rw [if_neg hlogged]
  unfold LogView.accesses
  rw [harea]
  exact List.mem_cons_of_mem _ List.mem_cons_self

/-- **When logging stays inside the area.** For every area that `start_log` accepts: whatever
CPU and memory events on the CPUs given to `handler_initialize` follow, and whatever the guest
writes to the area in between, all entries that the handler reads or writes lie inside the area, if
and only if the area has room for the buffers of all these CPUs. -/
theorem logging_in_bounds_iff (debug : Bool) {s : HandlerState} (hinit : s.gBInitStatus = true)
    {viewHandle : U32} {msg : LogMessage} (haccept : StartAccepted viewHandle msg s)
    (numOfCpus : BitVec 16) :
    (∀ actions : List AreaAction, (∀ a ∈ actions, a.OfCpus numOfCpus) →
      Steps (areaStep debug) (InBounds debug msg.logSize) (startLog viewHandle msg s)
        actions) ↔
      numOfCpus.toNat * entriesPerCpu * sizeofLogEntry ≤ msg.logSize.toNat := by
  constructor
  · intro h
    cases hcpus : numOfCpus.toNat with
    | zero => simp
    | succ last =>
      -- the last CPU, with the head that leads to the last entry of its buffer
      have hlt : last < 2 ^ 16 := by have := numOfCpus.isLt; omega
      have hthread : (BitVec.ofNat 64 last).toNat = last := by
        rw [BitVec.toNat_ofNat, Nat.mod_eq_of_lt (by omega)]
      have hsteps := h [headsAt 202, violationOn (.ofNat 64 last)] (by
        intro a ha
        rcases List.mem_cons.mp ha with rfl | ha
        · trivial
        · obtain rfl := List.mem_singleton.mp ha
          exact ⟨trivial, by rw [hthread]; omega⟩)
      have hinside := hsteps.2.1 _ (last_entry_accessed debug
        ((gBInitStatus_startLog viewHandle msg s).trans hinit) haccept.gLogDataHva _)
      have hstart : LogView.start (.ofNat 64 last) = last * entriesPerCpu := by
        unfold LogView.start getCpuLogBufferStart
        rw [BitVec.truncate_eq_setWidth, BitVec.toNat_setWidth, hthread,
          Nat.mod_eq_of_lt (by omega)]
      rw [hstart, entryEnd, entriesPerCpu_eq, logsPerCpu_eq] at hinside
      rw [entriesPerCpu_eq]
      have hlast : (last + 1) * 204 = last * 204 + 203 + 1 := by omega
      rw [hlast]
      exact hinside
  · intro hroom actions
    refine steps_of_forall (fun s a ha => ?_) actions
    cases a with
    | guest => trivial
    | event e =>
      intro i hi
      unfold eventAccesses at hi
      split at hi
      · exact absurd hi List.not_mem_nil
      · refine (entryEnd_accesses _ _ hi).trans (le_trans ?_ hroom)
        exact Nat.mul_le_mul_right _ (Nat.mul_le_mul_right _ ha.2)

/-- Nothing that two CPUs log leaves an area of four pages. -/
theorem logging_in_bounds_iff_two_cpus :
    let s := handlerInitialize (.boot .atBoot)
    let msg : LogMessage := ⟨0x1000, 0x4000⟩
    (∀ actions : List AreaAction, (∀ a ∈ actions, a.OfCpus 2) →
      Steps (areaStep false) (InBounds false msg.logSize) (startLog 0 msg s) actions) ↔
      (2 : BitVec 16).toNat * entriesPerCpu * sizeofLogEntry ≤ msg.logSize.toNat :=
  logging_in_bounds_iff false rfl ⟨by decide, rfl, rfl, by decide⟩ 2

/-- **Logging leaves a small area.** With an area of one page, an event on the first CPU writes
beyond it. -/
theorem logging_out_of_bounds :
    let s := run (areaStep false)
      (startLog 0 ⟨0x1000, 0x1000⟩ (handlerInitialize (.boot .atBoot))) [headsAt 202]
    StartAccepted 0 ⟨0x1000, 0x1000⟩ (handlerInitialize (.boot .atBoot)) ∧
      (violationOn 0).OfCpus 1 ∧ ¬ InBounds false 0x1000 s (violationOn 0) := by
  refine ⟨⟨by decide, rfl, rfl, by decide⟩, ⟨trivial, by decide⟩, fun h => ?_⟩
  exact absurd (h 203 (by decide +kernel)) (by decide)

end IkgtUsage
