import IkgtUsage.Common.Log

/-!
# The framework under the handler (`ikgt_handler_api.h`)

The handler runs inside a hypervisor framework whose code is not part of this repository. What the
handler sees of it is modelled here: the guest registers, host memory, and requests that succeed or
fail. Nothing is assumed about which requests succeed: the `n`-th request of an event (an
allocation, a register access, a translation, a monitoring or permission call) has the status
`outcome n`, for an arbitrary `outcome`. The services that change something outside the handler are
recorded in `calls`, newest first, with the status they returned.
-/

namespace IkgtUsage

/-- `ikgt_status_t`. -/
inductive IkgtStatus
  | success | error | allocateFailed
  | other (code : U32)
  deriving DecidableEq, Repr

/-- The general purpose registers. -/
inductive GpReg
  | rax | rbx | rcx | rdx | rdi | rsi | rbp | rsp
  | r8 | r9 | r10 | r11 | r12 | r13 | r14 | r15
  deriving DecidableEq, Repr

/-- `ikgt_cpu_reg_t`: the registers an event can name. `other` is a register outside the range
`IKGT_CPU_REG_RAX … IKGT_CPU_REG_CR4`. -/
inductive IkgtCpuReg
  | unknown
  | gp (r : GpReg)
  | cr0 | cr3 | cr4
  | other (n : Nat)
  deriving DecidableEq, Repr

/-- `ikgt_vmcs_guest_state_reg_id_t`: the registers the handler reads and writes. -/
inductive VmcsReg
  | gp (r : GpReg)
  | cr0 | cr3 | cr4
  | efer | sysenterCs | sysenterEsp | sysenterEip | pat
  deriving DecidableEq, Repr

/-- `ikgt_vmexit_reason_t`. -/
structure VmexitReason where
  reason : U32
  qualification : U64
  gva : U64
  deriving DecidableEq, Repr

/-- One item of `addr_list` in a page permission update. -/
structure PageItem where
  gva : U64
  gpa : U64
  perms : U32
  deriving DecidableEq, Repr

/-- The services that change something outside the handler, with their arguments. -/
inductive ServiceCall
  | writeGuestRegisters (reg : VmcsReg) (value : U64)
  | monitorCpuEvents (reg : IkgtCpuReg) (mask cpuBitmap0 cpuBitmap1 : U64) (enable : Bool)
  | monitorMsrWrites (msrId : U32) (enable : Bool)
  | updatePagePermission (items : List PageItem)
  deriving DecidableEq, Repr

/-- `ikgt_monitor_cpu_events` and `ikgt_monitor_msr_writes`. -/
def ServiceCall.isMonitor : ServiceCall → Bool
  | monitorCpuEvents .. | monitorMsrWrites .. => true
  | _ => false

/-- What the outside does during one event. -/
structure Surroundings where
  /-- The status of the `n`-th request. -/
  outcome : Nat → IkgtStatus
  /-- What `ikgt_get_vmexit_reason` fills in. -/
  vmexitReason : VmexitReason
  /-- The translation of `ikgt_gva_to_gpa`. -/
  gvaToGpa : U64 → U64
  /-- The translation of `ikgt_gpa_to_hva` in a view. -/
  gpaToHva : U32 → U64 → U64
  /-- What the stack holds where `policy_msg_add` leaves `entry.flags` uninitialised. -/
  stackFlags : U32
  /-- Whether an exit reason of 64 or more counts as masked: C leaves the shift undefined. -/
  wideReasonMasked : Bool

/-- The framework's state. -/
structure Framework where
  env : Surroundings
  /-- Requests made so far in this event. -/
  requests : Nat
  reg : VmcsReg → U64
  /-- The log entry array at a host address. -/
  hostLog : U64 → LogArea
  /-- `IKGT_ADDRINFO_MAX_COUNT`. -/
  addrinfoMaxCount : Nat
  addrinfoMaxCount_pos : 0 < addrinfoMaxCount
  calls : List (ServiceCall × IkgtStatus)

namespace Framework

/-- The status of the next request. -/
def nextOutcome (fw : Framework) : IkgtStatus := fw.env.outcome fw.requests

/-- The framework after a request that changes nothing else. -/
def tick (fw : Framework) : Framework := { fw with requests := fw.requests + 1 }

/-- `ikgt_malloc`: whether the allocation succeeds. -/
def ikgtMalloc (fw : Framework) : Bool × Framework := (fw.nextOutcome = .success, fw.tick)

/-- `ikgt_read_guest_registers` for one register. -/
def ikgtReadGuestRegisters (reg : VmcsReg) (fw : Framework) : IkgtStatus × U64 × Framework :=
  (fw.nextOutcome, fw.reg reg, fw.tick)

/-- A register takes a value. -/
def setReg (reg : VmcsReg) (value : U64) (fw : Framework) : Framework :=
  { fw with reg := Function.update fw.reg reg value }

/-- `ikgt_write_guest_registers` for one register: a failing write changes no register. -/
def ikgtWriteGuestRegisters (reg : VmcsReg) (value : U64) (fw : Framework) :
    IkgtStatus × Framework :=
  let status := fw.nextOutcome
  let fw := { fw.tick with calls := (.writeGuestRegisters reg value, status) :: fw.calls }
  if status = .success then (status, fw.setReg reg value)
  else (status, fw)

/-- A monitoring or permission service: recorded with its status. -/
def callService (call : ServiceCall) (fw : Framework) : IkgtStatus × Framework :=
  (fw.nextOutcome, { fw.tick with calls := (call, fw.nextOutcome) :: fw.calls })

/-- The start of an event: a fresh environment, no request made yet. -/
def enter (env : Surroundings) (fw : Framework) : Framework :=
  { fw with env := env, requests := 0 }

end Framework

/-! ## Surroundings in which nothing fails -/

/-- Every request succeeds; addresses translate to themselves. -/
def Surroundings.cooperative : Surroundings :=
  ⟨fun _ => .success, ⟨0, 0, 0⟩, id, fun _ gpa => gpa, 0, false⟩

/-- A framework at boot: zero registers, no call made. -/
def Framework.atBoot : Framework :=
  ⟨.cooperative, 0, fun _ => 0, fun _ _ => .zero, 64, by decide, []⟩

end IkgtUsage
