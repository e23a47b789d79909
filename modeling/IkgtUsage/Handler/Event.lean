import IkgtUsage.Handler.Msr
import IkgtUsage.Handler.Policy

/-!
# `handler/handler.c`, `cpu.c`, `memory.c`, `message.c`: the dispatch of an event

`handlerReportEvent` is the entry point of the handler: the framework calls it for every memory,
CPU and message event. The parameter `debug` says whether the build defines `DEBUG`, which adds the
`POLICY_DEBUG` command.
-/

namespace IkgtUsage

open Framework

/-! ## Events -/

/-- The three bits of an EPT permission. -/
structure MemPerms where
  readable : Bool
  writable : Bool
  executable : Bool
  deriving DecidableEq, Repr

/-- `ikgt_mem_event_info_t`: the permissions of the page and the access attempted. -/
structure MemEventInfo where
  perms : MemPerms
  attempt : MemPerms
  deriving DecidableEq, Repr

/-- `type` and `event_specific_data`. For a message the data is the guest memory at the address
passed, which the handler copies. -/
inductive EventData
  | mem (meminfo : MemEventInfo)
  | cpu (cpuinfo : CpuEventInfo)
  | msg (content : PolicyMessage)
  | other (type : Nat)
  deriving DecidableEq, Repr

/-! ## `memory.c` -/

/-- `violation_type_t`. -/
inductive ViolationType
  | executeViolation | writeViolation | readViolation | notPresentViolation | unknownViolation
  deriving DecidableEq, Repr

/-- The type of access that caused a memory event. -/
def violationType (meminfo : MemEventInfo) : ViolationType :=
  if !meminfo.perms.executable && meminfo.attempt.executable then .executeViolation
  else if !meminfo.perms.readable && meminfo.attempt.readable then .readViolation
  else if !meminfo.perms.writable && meminfo.attempt.writable then .writeViolation
  else .unknownViolation

/-- `handle_memory_event`. -/
def handleMemoryEvent (ev : EventInfo) (meminfo : MemEventInfo) (s : HandlerState) : HandlerState :=
  let s := { s with response := .unspecified }
  match violationType meminfo with
  | .executeViolation | .notPresentViolation => s
  | .readViolation => { s with response := .allow }
  | .writeViolation => logEvent ev.threadId ev.rip { s with response := .allow }
  | .unknownViolation => { s with response := .allow }

/-! ## `cpu.c` -/

/-- `handle_cpu_event`. -/
def handleCpuEvent (ev : EventInfo) (cpuinfo : CpuEventInfo) (s : HandlerState) : HandlerState :=
  match cpuinfo.optype with
  | .cpuid => { s with response := .unspecified }
  | .reg =>
    match cpuinfo.eventReg with
    | .cr0 => handleCr0Event ev cpuinfo s
    | .cr4 => handleCr4Event ev cpuinfo s
    | _ => s
  | .msr => handleMsrEvent ev s
  | .other _ => s

/-! ## `message.c` -/

/-- The `switch (msg->command)` of `handle_msg_event`. -/
def dispatchMsg (debug : Bool) (ev : EventInfo) (msg : PolicyMessage) (s : HandlerState) :
    HandlerState :=
  if msg.command = CommandCode.policyInitLog.code then startLog ev.viewHandle msg.logParam s
  else if msg.command = CommandCode.policyEntryEnable.code then
    handleMsgPolicyEnable msg.policyData s
  else if msg.command = CommandCode.policyEntryDisable.code then
    handleMsgPolicyDisable msg.policyData s
  else if msg.command = CommandCode.policyMakeImmutable.code then handleMsgPolicyMakeImmutable s
  else if debug ∧ msg.command = CommandCode.policyDebug.code then policyDebug msg.debugParam s
  else s

/-- `handle_msg_event`: allocates a buffer and copies the message into it. -/
def handleMsgEvent (debug : Bool) (ev : EventInfo) (content : PolicyMessage) (s : HandlerState) :
    HandlerState :=
  let (allocated, fw) := ikgtMalloc s.fw
  let s := { s with fw := fw }
  if !allocated then s
  else
    -- ikgt_copy_gva_to_hva
    let status := s.fw.nextOutcome
    let s := { s with fw := s.fw.tick }
    if status ≠ .success then s
    else dispatchMsg debug ev content s

/-! ## `handler.c` -/

/-- `handler_report_event`. -/
def handlerReportEvent (debug : Bool) (ev : EventInfo) (data : EventData) (s : HandlerState) :
    HandlerState :=
  let s := { s with response := .allow }
  if !s.gBInitStatus then s
  else
    match data with
    | .mem meminfo => handleMemoryEvent ev meminfo s
    | .cpu cpuinfo => handleCpuEvent ev cpuinfo s
    | .msg content => handleMsgEvent debug ev content s
    | .other _ => s

/-! ## Runs -/

/-- One event as the framework delivers it, with what the outside does meanwhile. -/
structure Event where
  env : Surroundings
  info : EventInfo
  data : EventData

/-- The handler takes one event. -/
def reportEvent (debug : Bool) (s : HandlerState) (e : Event) : HandlerState :=
  handlerReportEvent debug e.info e.data { s with fw := s.fw.enter e.env }

/-! ## Concrete messages -/

/-- A message about the write policy of a resource. -/
def PolicyMessage.about (command : CommandCode) (id : ResourceId) (wAction : U32)
    (stickyVal : U64) : PolicyMessage :=
  ⟨command.code, 1, ⟨id.code, 0, wAction, 0, stickyVal, ⟨0, 0, 0⟩⟩⟩

/-- The message, delivered where nothing fails. -/
def PolicyMessage.event (msg : PolicyMessage) : Event := ⟨.cooperative, ⟨0, 0, 0⟩, .msg msg⟩

end IkgtUsage
