import IkgtUsage.Handler.ControlReg

/-!
# `handler/cpu_msr.c`: writes to a model specific register

The value of a WRMSR is EDX:EAX and its register number is ECX. The handler masks RDX and RAX to
their low halves, but switches on all 64 bits of RCX.
-/

namespace IkgtUsage

open Framework Lib

/-- `policy_msr_ctx`: the fields the loop reads. -/
structure PolicyMsrCtx where
  newValue : U64
  curValue : U64
  msrId : U32
  deriving DecidableEq, Repr

/-- `MAKE_U64(hi, lo)`. -/
def makeU64 (hi lo : U64) : U64 := ((hi &&& 0xffffffff) <<< 32) ||| (lo &&& 0xffffffff)

/-- The `switch (rcx)` of `handle_msr_event`: the VMCS register read in each case. -/
def msrSwitch (rcx : U64) : Option VmcsReg :=
  if rcx = ia32MsrEfer.zeroExtend 64 then some .efer
  else if rcx = ia32MsrSysenterCs.zeroExtend 64 then some .sysenterCs
  else if rcx = ia32MsrSysenterEsp.zeroExtend 64 then some .sysenterEsp
  else if rcx = ia32MsrSysenterEip.zeroExtend 64 then some .sysenterEip
  else if rcx = ia32MsrSysenterPat.zeroExtend 64 then some .pat
  else none

/-- The response `process_msr_policy` sets. -/
def msrPolicyResponse (entry : PolicyEntry) (ctx : PolicyMsrCtx) : IkgtEventResponse :=
  if entry.hasSticky then
    if ctx.newValue = entry.stickyVal then .allow else .redirect
  else if entry.wHasSkip then .redirect
  else .allow

/-- The slots the loop of `handle_msr_event` does not skip. -/
def isMsrEntry (msrId : U32) (entry : PolicyEntry) : Bool :=
  entry.resourceId ≠ resourceIdUnknown ∧ resIdToMsr entry.resourceId = msrId

/-- The slot loop of `handle_msr_event`: `process_msr_policy` returns TRUE, so the loop ends at the
first slot it is called on. -/
def msrPolicyLoop (ev : EventInfo) (ctx : PolicyMsrCtx) (s : HandlerState) : HandlerState :=
  match s.slots.find? (isMsrEntry ctx.msrId) with
  | none => s
  | some entry =>
    let s := if entry.wHasLog then logEvent ev.threadId ev.rip s else s
    let s := { s with response := msrPolicyResponse entry ctx }
    s.withSlots (updateFirst (isMsrEntry ctx.msrId) PolicyEntry.incAccessCount s.slots)

/-- `handle_msr_event` once RAX, RCX and RDX have been read. -/
def filterMsrWrite (ev : EventInfo) (rax rcx rdx : U64) (s : HandlerState) : HandlerState :=
  match msrSwitch rcx with
  | none => s
  | some reg =>
    let (status, curValue, fw) := readGuestReg reg s.fw
    let s := { s with fw := fw }
    if status ≠ .success then s
    else msrPolicyLoop ev ⟨makeU64 rdx rax, curValue, rcx.truncate 32⟩ s

/-- `handle_msr_event`. -/
def handleMsrEvent (ev : EventInfo) (s : HandlerState) : HandlerState :=
  let s := { s with response := .allow }
  let (status, rax, fw) := readGuestReg (.gp .rax) s.fw
  let s := { s with fw := fw }
  if status ≠ .success then s
  else
    let (status, rcx, fw) := readGuestReg (.gp .rcx) s.fw
    let s := { s with fw := fw }
    if status ≠ .success then s
    else
      let (status, rdx, fw) := readGuestReg (.gp .rdx) s.fw
      let s := { s with fw := fw }
      if status ≠ .success then s
      else filterMsrWrite ev rax rcx rdx s

end IkgtUsage
