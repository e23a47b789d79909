import IkgtUsage.Handler.State

/-!
# `handler/log.c`: logging an event, starting and stopping the log

`logBufferAddRecord` writes one record into a CPU's ring and advances the head in the ring's meta
entry. The area is shared with the guest, so its contents are the framework's (`hostLog`).
`stop_log` has no caller among the events.
-/

namespace IkgtUsage

open Framework

/-- The fields of a record that an event provides. -/
structure LogRecord where
  rip : U64
  reason : U32
  qualification : U64
  gva : U64
  deriving DecidableEq, Repr

/-- The data entry `log_buffer_add_record` leaves for a record. -/
def LogRecord.entry (r : LogRecord) (seq : U64) : LogEntry :=
  ⟨seq, r.reason, 1, r.qualification, r.rip, r.gva⟩

/-- `log_buffer_add_record` on the buffer that starts at index `start` of the area. -/
def logBufferAddRecord (start : Nat) (r : LogRecord) (area : LogArea) : LogArea :=
  let nextSeqNum := (area start).metaHead
  let index := logSeqNumToIndex nextSeqNum
  let area := Function.update area (start + index) (r.entry nextSeqNum)
  Function.update area start ((area start).withMetaHead (nextSeqNum + 1))

/-- `g_log_mask`: a set bit keeps events of that exit reason out of the log. -/
def gLogMask : U64 := 0x400

/-- `(1L << reason.reason) & g_log_mask`, which is defined for the reasons below 64. -/
def logMasked (env : Surroundings) : Bool :=
  let reason := env.vmexitReason.reason
  if reason.toNat < 64 then (1#64 <<< reason.toNat) &&& gLogMask ≠ 0 else env.wideReasonMasked

/-- `log_event`. -/
def logEvent (threadId rip : U64) (s : HandlerState) : HandlerState :=
  let s := { s with logEvents := ⟨threadId, rip⟩ :: s.logEvents }
  let reason := s.fw.env.vmexitReason
  if logMasked s.fw.env then s
  else
    match s.gLogDataHva with
    | none => s
    | some hva =>
      let start := getCpuLogBufferStart (threadId.truncate 32 : U32).toNat
      let r : LogRecord := ⟨rip, reason.reason, reason.qualification, reason.gva⟩
      { s with fw := { s.fw with
          hostLog := Function.update s.fw.hostLog hva
            (logBufferAddRecord start r (s.fw.hostLog hva)) } }

/-- `PERMISSION_READ`. -/
def permissionRead : U32 := 1

/-- `PERMISSION_RWX`: read, write and execute. -/
def permissionRwx : U32 := 0x1 ||| 0x2 ||| 0x4

/-- `start_log`: the address and the size are stored before the translations that may fail. -/
def startLog (viewHandle : U32) (msg : LogMessage) (s : HandlerState) : HandlerState :=
  if msg.logAddr = 0 then s
  else
    let s := { s with gLogGva := msg.logAddr, gLogSize := msg.logSize }
    -- ikgt_gva_to_gpa
    let status := s.fw.nextOutcome
    let gpa := s.fw.env.gvaToGpa s.gLogGva
    let s := { s with fw := s.fw.tick }
    if status ≠ .success then s
    else
      -- ikgt_gpa_to_hva
      let status := s.fw.nextOutcome
      let hva := s.fw.env.gpaToHva viewHandle gpa
      let s := { s with fw := s.fw.tick }
      if status ≠ .success then s
      else
        let s := { s with gLogDataHva := if hva = 0 then none else some hva }
        { s with fw := (utilMonitorMemoryEx s.gLogGva s.gLogSize permissionRead s.fw).2 }

/-- `stop_log`. -/
def stopLog (s : HandlerState) : HandlerState :=
  match s.gLogDataHva with
  | none => s
  | some _ =>
    let s :=
      if s.gLogGva ≠ 0 then
        { s with fw := (utilMonitorMemoryEx s.gLogGva s.gLogSize permissionRwx s.fw).2 }
      else s
    { s with gLogDataHva := none }

end IkgtUsage
