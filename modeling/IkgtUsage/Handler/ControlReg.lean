import IkgtUsage.Handler.Log
import IkgtUsage.Handler.Resources

/-!
# `handler/cpu_cr0.c`, `handler/cpu_cr4.c`: writes to a control register

The two files are one program with the register, the mask table and the range test exchanged. It
is written once over a `ControlReg`; `handleCr0Event` and `handleCr4Event` are its two instances.

The handler is called before the guest's `mov crN, reg`. It may change the operand register and
let the instruction run (ALLOW), or make the framework skip it (REDIRECT).
-/

namespace IkgtUsage

open Framework

/-- `ikgt_cpu_event_info_t.optype`. -/
inductive CpuEventOp
  | cpuid | reg | msr
  | other (n : Nat)
  deriving DecidableEq, Repr

/-- `ikgt_cpu_event_info_t`. -/
structure CpuEventInfo where
  optype : CpuEventOp
  eventReg : IkgtCpuReg
  operandReg : IkgtCpuReg
  deriving DecidableEq, Repr

/-- The fields of `ikgt_event_info_t` common to all events. -/
structure EventInfo where
  threadId : U64
  viewHandle : U32
  /-- `vmcs_guest_state.ia32_reg_rip`. -/
  rip : U64
  deriving DecidableEq, Repr

/-- `policy_crx_ctx`: the fields the loop reads and writes. -/
structure PolicyCrCtx where
  newCrValue : U64
  curCrValue : U64
  diff : U64
  log : Bool
  deriving DecidableEq, Repr

/-- `process_crx_policy`: the entry and the context after it. -/
def processCrPolicy (k : ControlReg) (entry : PolicyEntry) (ctx : PolicyCrCtx) :
    PolicyEntry × PolicyCrCtx :=
  let mask := k.resIdToMask entry.resourceId
  if mask &&& ctx.diff = 0 then (entry, ctx)
  else
    let ctx := { ctx with log := if entry.wHasLog then true else ctx.log }
    let newCrValue :=
      if entry.hasSticky then
        if (ctx.newCrValue &&& mask ≠ 0 ∧ entry.stickyVal &&& 1 = 0) ∨
            (ctx.newCrValue &&& mask = 0 ∧ entry.stickyVal &&& 1 ≠ 0) then
          ctx.newCrValue ^^^ mask
        else ctx.newCrValue
      else if entry.wHasSkip then ctx.newCrValue ^^^ mask
      else ctx.newCrValue
    (entry.incAccessCount, { ctx with newCrValue := newCrValue })

/-- The slot loop of `handle_crx_event`. -/
def crPolicyLoop (k : ControlReg) : List PolicyEntry → PolicyCrCtx → List PolicyEntry × PolicyCrCtx
  | [], ctx => ([], ctx)
  | entry :: rest, ctx =>
    if entry.resourceId = resourceIdUnknown ∨ k.isEntry entry = false then
      let (rest, ctx) := crPolicyLoop k rest ctx
      (entry :: rest, ctx)
    else
      let (entry, ctx) := processCrPolicy k entry ctx
      let (rest, ctx) := crPolicyLoop k rest ctx
      (entry :: rest, ctx)

/-- `handle_crx_event` once both values have been read. -/
def filterCrWrite (k : ControlReg) (ev : EventInfo) (operandRegId : VmcsReg)
    (curCrValue newCrValue : U64) (s : HandlerState) : HandlerState :=
  let diff := curCrValue ^^^ newCrValue
  if diff = 0 then s
  else
    let (slots, ctx) := crPolicyLoop k s.slots ⟨newCrValue, curCrValue, diff, false⟩
    let s := s.withSlots slots
    let s := if ctx.log then logEvent ev.threadId ev.rip s else s
    if ctx.newCrValue = curCrValue then { s with response := .redirect }
    else
      -- a failing write is printed and not acted on
      let (_, fw) := writeGuestReg operandRegId ctx.newCrValue s.fw
      { s with fw := fw, response := .allow }

/-- `handle_crx_event`. -/
def handleCrEvent (k : ControlReg) (ev : EventInfo) (cpuinfo : CpuEventInfo) (s : HandlerState) :
    HandlerState :=
  let s := { s with response := .allow }
  if cpuinfo.operandReg = .unknown then s
  else
    let (status, curCrValue, fw) := readGuestReg k.vmcsReg s.fw
    let s := { s with fw := fw }
    if status ≠ .success then s
    else
      match getIkgtVmcsGuestRegId cpuinfo.operandReg with
      | none => s
      | some operandRegId =>
        let (status, newCrValue, fw) := readGuestReg operandRegId s.fw
        let s := { s with fw := fw }
        if status ≠ .success then s
        else filterCrWrite k ev operandRegId curCrValue newCrValue s

/-- `handle_cr0_event`. -/
def handleCr0Event : EventInfo → CpuEventInfo → HandlerState → HandlerState := handleCrEvent cr0

/-- `handle_cr4_event`. -/
def handleCr4Event : EventInfo → CpuEventInfo → HandlerState → HandlerState := handleCrEvent cr4

end IkgtUsage
