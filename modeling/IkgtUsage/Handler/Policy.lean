import IkgtUsage.Handler.Resources
import IkgtUsage.Handler.State

/-!
# `handler/policy.c`: policy messages

An ENABLE message changes the table and then asks the framework to monitor the resource; a DISABLE
message asks the framework first and changes the table whatever the answer. Once the policy is
immutable neither does anything.
-/

namespace IkgtUsage

open Framework

/-! ## Monitoring -/

/-- `policy_monitor_cpu_events`: the bitmaps and the mask come from the entry. -/
def policyMonitorCpuEvents (entry : PolicyEntry) (reg : IkgtCpuReg) (enable : Bool)
    (fw : Framework) : IkgtStatus × Framework :=
  utilMonitorCpuEvents entry.resourceInfo.cpuMask1 entry.resourceInfo.cpuMask2
    entry.resourceInfo.mask reg enable fw

/-- `policy_monitor_msr`. -/
def policyMonitorMsr (msrId : U32) (enable : Bool) (fw : Framework) : IkgtStatus × Framework :=
  utilMonitorMsr msrId enable fw

/-- `policy_set_monitor`. -/
def policySetMonitor (entry : PolicyEntry) (enable : Bool) (fw : Framework) :
    IkgtStatus × Framework :=
  if entry.isCr0Entry then policyMonitorCpuEvents entry .cr0 enable fw
  else if entry.isCr4Entry then policyMonitorCpuEvents entry .cr4 enable fw
  else
    let msrId := resIdToMsr entry.resourceId
    if msrId ≠ ia32MsrInvalid then policyMonitorMsr msrId enable fw
    else (.error, fw)

/-! ## Messages -/

/-- `policy_msg_add`. -/
def policyMsgAdd (msg : PolicyUpdateRec) (s : HandlerState) : IkgtStatus × HandlerState :=
  match s.gPolicyTable with
  | none => (.error, s)
  | some t =>
    if msg.resourceId = resourceIdUnknown then (.error, s)
    else
      let entry := policyMsgToEntry msg s.fw.env.stackFlags
      let t := policyEntryAdd t entry
      let (status, fw) := policySetMonitor entry true s.fw
      (status, { s with gPolicyTable := some t, fw := fw })

/-- `policy_msg_del`. -/
def policyMsgDel (msg : PolicyUpdateRec) (s : HandlerState) : IkgtStatus × HandlerState :=
  match s.gPolicyTable with
  | none => (.error, s)
  | some t =>
    if msg.resourceId = resourceIdUnknown then (.error, s)
    else
      let entry := policyMsgToEntry msg s.fw.env.stackFlags
      let (status, fw) := policySetMonitor entry false s.fw
      (status, { s with gPolicyTable := some (policyEntryDel t entry), fw := fw })

/-- `policy_sanity_check`: every message passes. -/
def policySanityCheck (_ : PolicyUpdateRec) : IkgtStatus := .success

/-- `handle_msg_policy_enable`. -/
def handleMsgPolicyEnable (msg : PolicyUpdateRec) (s : HandlerState) : HandlerState :=
  if s.gPolicyImmutable then s
  else if policySanityCheck msg ≠ .success then s
  else (policyMsgAdd msg s).2

/-- `handle_msg_policy_disable`. -/
def handleMsgPolicyDisable (msg : PolicyUpdateRec) (s : HandlerState) : HandlerState :=
  if s.gPolicyImmutable then s
  else if policySanityCheck msg ≠ .success then s
  else (policyMsgDel msg s).2

/-- `handle_msg_policy_make_immutable`. -/
def handleMsgPolicyMakeImmutable (s : HandlerState) : HandlerState :=
  if s.gPolicyImmutable then s else { s with gPolicyImmutable := true }

/-- `policy_debug`, of debug builds. Any other parameter only prints. -/
def policyDebug (msg : DebugMessage) (s : HandlerState) : HandlerState :=
  if msg.parameter = 400 then handleMsgPolicyMakeImmutable s else s

end IkgtUsage
