import IkgtUsage.Handler.Frame

/-!
# What the framework monitors

The handler never learns what the framework monitors; it only asks. `Framework.watches` is the last
answered request about one bit of a register on one CPU, or about one MSR: whether the handler asked
to monitor it and has not asked to stop since. Only the monitoring calls count, so a frame step of
the handler keeps it (`PolicyFrame.watches`).
-/

namespace IkgtUsage

open Framework

/-- One thing the framework can monitor: writes that change a bit of a control register on a CPU, or
writes to an MSR. -/
inductive Watch
  | crBit (reg : IkgtCpuReg) (cpu bit : Nat)
  | msr (msrId : U32)
  deriving DecidableEq, Repr

/-- CPU `cpu` is in the bitmap of the two words. -/
def inBitmap (cpuBitmap0 cpuBitmap1 : U64) (cpu : Nat) : Bool :=
  if cpu < 64 then cpuBitmap0.getLsbD cpu else cpuBitmap1.getLsbD (cpu - 64)

/-- What a call says about `w`: monitor it, or stop. -/
def ServiceCall.about : ServiceCall → Watch → Option Bool
  | monitorCpuEvents reg mask cpuBitmap0 cpuBitmap1 enable, .crBit reg' cpu bit =>
    if reg = reg' ∧ inBitmap cpuBitmap0 cpuBitmap1 cpu ∧ mask.getLsbD bit then some enable else none
  | monitorMsrWrites msrId enable, .msr msrId' => if msrId = msrId' then some enable else none
  | _, _ => none

/-- The last request about `w` among the calls, newest first: no request, or not to monitor, is
`false`. -/
def lastRequest (calls : List (ServiceCall × IkgtStatus)) (w : Watch) : Bool :=
  (calls.findSome? fun c => if c.2 = .success then c.1.about w else none).getD false

/-- The handler has asked to monitor `w` and not since to stop. -/
def Framework.watches (fw : Framework) (w : Watch) : Bool := lastRequest fw.calls w

/-- A new call counts if it succeeds. -/
theorem lastRequest_cons (call : ServiceCall) (status : IkgtStatus)
    (calls : List (ServiceCall × IkgtStatus)) (w : Watch) :
    lastRequest ((call, status) :: calls) w =
      if status = .success then (call.about w).getD (lastRequest calls w)
      else lastRequest calls w := by
  unfold lastRequest
  rw [List.findSome?_cons]
  by_cases hstatus : status = .success
  · rw [if_pos hstatus, if_pos hstatus]
    cases call.about w with
    | none => rfl
    | some enable => rfl
  · rw [if_neg hstatus, if_neg hstatus]

/-- A call that is not about monitoring says nothing. -/
theorem ServiceCall.about_of_not_monitor {call : ServiceCall} (h : call.isMonitor = false)
    (w : Watch) : call.about w = none := by
  cases call with
  | writeGuestRegisters => rfl
  | updatePagePermission => rfl
  | monitorCpuEvents => cases h
  | monitorMsrWrites => cases h

/-- Only monitoring calls count. -/
theorem lastRequest_filter (calls : List (ServiceCall × IkgtStatus)) (w : Watch) :
    lastRequest (calls.filter fun c => c.1.isMonitor) w = lastRequest calls w := by
  unfold lastRequest
  congr 1
  induction calls with
  | nil => rfl
  | cons c calls ih =>
    by_cases hc : c.1.isMonitor = true
    · rw [List.filter_cons_of_pos (by exact hc), List.findSome?_cons, List.findSome?_cons, ih]
    · rw [Bool.not_eq_true] at hc
      rw [List.filter_cons_of_neg (by simp [hc]), List.findSome?_cons,
        ServiceCall.about_of_not_monitor hc, ite_self, ih]

theorem Framework.watches_congr {fw fw' : Framework} (h : fw'.monitorCalls = fw.monitorCalls)
    (w : Watch) : fw'.watches w = fw.watches w := by
  unfold watches
  rw [← lastRequest_filter, ← lastRequest_filter fw.calls]
  exact congrArg (fun calls => lastRequest calls w) h

/-- A frame step keeps what is monitored. -/
theorem PolicyFrame.watches {s s' : HandlerState} (h : PolicyFrame s s') (w : Watch) :
    s'.fw.watches w = s.fw.watches w := Framework.watches_congr h.monitors w

/-! ## Requests of the handler -/

/-- The monitoring request for an entry: none where its id has no MSR number. -/
def monitorCall (entry : PolicyEntry) (enable : Bool) : Option ServiceCall :=
  if entry.isCr0Entry then
    some (.monitorCpuEvents .cr0 entry.resourceInfo.mask entry.resourceInfo.cpuMask1
      entry.resourceInfo.cpuMask2 enable)
  else if entry.isCr4Entry then
    some (.monitorCpuEvents .cr4 entry.resourceInfo.mask entry.resourceInfo.cpuMask1
      entry.resourceInfo.cpuMask2 enable)
  else if resIdToMsr entry.resourceId ≠ ia32MsrInvalid then
    some (.monitorMsrWrites (resIdToMsr entry.resourceId) enable)
  else none

/-- **The request of `policy_set_monitor`**, made if its parameter block can be allocated. -/
theorem calls_policySetMonitor (entry : PolicyEntry) (enable : Bool) (fw : Framework) :
    (policySetMonitor entry enable fw).2.calls =
      if fw.nextOutcome = .success then
        (monitorCall entry enable).toList.map (fun call => (call, fw.tick.nextOutcome)) ++ fw.calls
      else fw.calls := by
  have hcalls : fw.tick.calls = fw.calls := rfl
  unfold policySetMonitor monitorCall
  by_cases hcr0 : entry.isCr0Entry = true
  · by_cases hmalloc : fw.nextOutcome = .success <;>
      simp [hcr0, policyMonitorCpuEvents, utilMonitorCpuEvents, ikgtMalloc, callService, hmalloc,
        hcalls]
  by_cases hcr4 : entry.isCr4Entry = true
  · by_cases hmalloc : fw.nextOutcome = .success <;>
      simp [hcr0, hcr4, policyMonitorCpuEvents, utilMonitorCpuEvents, ikgtMalloc, callService,
        hmalloc, hcalls]
  by_cases hmsr : resIdToMsr entry.resourceId = ia32MsrInvalid
  · simp [hcr0, hcr4, hmsr]
  · by_cases hmalloc : fw.nextOutcome = .success <;>
      simp [hcr0, hcr4, hmsr, policyMonitorMsr, utilMonitorMsr, ikgtMalloc, callService, hmalloc,
        hcalls]

/-- What is monitored after it. -/
theorem watches_policySetMonitor (entry : PolicyEntry) (enable : Bool) (fw : Framework)
    (w : Watch) :
    (policySetMonitor entry enable fw).2.watches w =
      if fw.nextOutcome = .success ∧ fw.tick.nextOutcome = .success then
        ((monitorCall entry enable).bind fun call => call.about w).getD (fw.watches w)
      else fw.watches w := by
  unfold Framework.watches
  rw [calls_policySetMonitor]
  by_cases hmalloc : fw.nextOutcome = .success
  · rw [if_pos hmalloc]
    cases monitorCall entry enable with
    | none => exact (ite_self _).symm
    | some call =>
      simp only [hmalloc, true_and]
      exact lastRequest_cons call fw.tick.nextOutcome fw.calls w
  · rw [if_neg hmalloc, if_neg fun hboth => hmalloc hboth.1]

end IkgtUsage
