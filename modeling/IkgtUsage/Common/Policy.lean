import Mathlib.Data.BitVec

/-!
# `common/include/policy_common.h`: resource ids, policy actions, messages

The vocabulary the handler and the driver share. A resource id travels as a 32-bit word, so the
enumeration `RESOURCE_ID` is `ResourceId` with its number `code`; a word outside the enumeration
is an id like any other for the handler's table.

The payload of `policy_message_t` is a union whose largest member is `policy_update_rec_t`. It is
modelled by that member; `logParam` and `debugParam` read the same bytes as the other members do.
-/

namespace IkgtUsage

/-- `uint32_t`. -/
abbrev U32 := BitVec 32

/-- `uint64_t`. -/
abbrev U64 := BitVec 64

/-- `BIT(x)`, kept in a 32-bit mask. -/
def BIT (x : Nat) : U32 := 1#32 <<< x

/-! ## Control register bits -/

def PE : U32 := BIT 0
def MP : U32 := BIT 1
def EM : U32 := BIT 2
def TS : U32 := BIT 3
def ET : U32 := BIT 4
def NE : U32 := BIT 5
def WP : U32 := BIT 16
def AM : U32 := BIT 18
def NW : U32 := BIT 29
def CD : U32 := BIT 30
def PG : U32 := BIT 31

def VME : U32 := BIT 0
def PVI : U32 := BIT 1
def TSD : U32 := BIT 2
def DE : U32 := BIT 3
def PSE : U32 := BIT 4
def PAE : U32 := BIT 5
def MCE : U32 := BIT 6
def PGE : U32 := BIT 7
def PCE : U32 := BIT 8
def OSFXSR : U32 := BIT 9
def OSXMMEXCPT : U32 := BIT 10
def VMXE : U32 := BIT 13
def SMXE : U32 := BIT 14
def PCIDE : U32 := BIT 17
def OSXSAVE : U32 := BIT 18
def SMEP : U32 := BIT 20
def SMAP : U32 := BIT 21

/-! ## Policy actions -/

def policyActLog : U32 := BIT 0
def policyActSkip : U32 := BIT 1
def policyActSticky : U32 := BIT 7

/-! ## Resource ids -/

/-- `RESOURCE_ID`, the members from `RESOURCE_ID_START` up to `RESOURCE_ID_END`. -/
inductive ResourceId
  | cr0Pe | cr0Mp | cr0Em | cr0Ts | cr0Et | cr0Ne | cr0Wp | cr0Am | cr0Nw | cr0Cd | cr0Pg
  | cr4Vme | cr4Pvi | cr4Tsd | cr4De | cr4Pse | cr4Pae | cr4Mce | cr4Pge | cr4Pce
  | cr4Osfxsr | cr4Osxmmexcpt | cr4Vmxe | cr4Smxe | cr4Pcide | cr4Osxsave | cr4Smep | cr4Smap
  | msrEfer | msrStar | msrLstar | msrSysenterCs | msrSysenterEsp | msrSysenterEip
  | msrSysenterPat
  deriving DecidableEq, Repr

/-- The number of a member: the enumeration counts from `RESOURCE_ID_START = 1`. -/
def ResourceId.code (r : ResourceId) : U32 := BitVec.ofNat 32 (r.ctorIdx + 1)

/-- `RESOURCE_ID_START`. -/
def resourceIdStart : U32 := 1

/-- `RESOURCE_ID_END`. -/
def resourceIdEnd : U32 := 36

/-- `RESOURCE_ID_UNKNOWN`: the mark of a free slot. -/
def resourceIdUnknown : U32 := 37

/-- The members of `RESOURCE_ID` are numbered below `RESOURCE_ID_END`. -/
theorem ResourceId.code_bounds (r : ResourceId) :
    resourceIdStart ≤ r.code ∧ r.code < resourceIdEnd := by
  cases r <;> decide

theorem ResourceId.code_ne_unknown (r : ResourceId) : r.code ≠ resourceIdUnknown := by
  cases r <;> decide

theorem ResourceId.code_injective {r r' : ResourceId} (h : r.code = r'.code) : r = r' := by
  have hr : ∀ q : ResourceId, q.code.toNat = q.ctorIdx + 1 := fun q => by cases q <;> rfl
  have hidx : r.ctorIdx = r'.ctorIdx := by
    have := congrArg BitVec.toNat h
    rw [hr, hr] at this
    omega
  rw [← ResourceId.ofNat_ctorIdx r, hidx, ResourceId.ofNat_ctorIdx]

/-! ## Messages -/

/-- `COMMAND_CODE`. -/
inductive CommandCode
  | policyEntryEnable | policyEntryDisable | policyMakeImmutable | policyInitLog | policyDebug
  deriving DecidableEq, Repr

/-- The number of a command. -/
def CommandCode.code (c : CommandCode) : U32 := BitVec.ofNat 32 c.ctorIdx

/-- The words `resource_info[POLICY_INFO_IDX_MAX]`, in the order of `POLICY_RESOUCE_INFO_IDX`. -/
structure ResourceInfo where
  mask : U64
  cpuMask1 : U64
  cpuMask2 : U64
  deriving DecidableEq, Repr

/-- `policy_update_rec_t`. -/
structure PolicyUpdateRec where
  resourceId : U32
  rAction : U32
  wAction : U32
  xAction : U32
  stickyVal : U64
  resourceInfo : ResourceInfo
  deriving DecidableEq, Repr

/-- `log_message_t`. -/
structure LogMessage where
  logAddr : U64
  logSize : U32
  deriving DecidableEq, Repr

/-- `debug_message_t`. -/
structure DebugMessage where
  parameter : U64
  deriving DecidableEq, Repr

/-- `policy_message_t`, the union seen as its largest member. -/
structure PolicyMessage where
  command : U32
  count : U32
  policyData : PolicyUpdateRec
  deriving DecidableEq, Repr

/-- The union read as `log_param`: the address is the first eight bytes, the size the next four. -/
def PolicyMessage.logParam (m : PolicyMessage) : LogMessage :=
  ⟨m.policyData.rAction ++ m.policyData.resourceId, m.policyData.wAction⟩

/-- The union read as `debug_param`. -/
def PolicyMessage.debugParam (m : PolicyMessage) : DebugMessage :=
  ⟨m.policyData.rAction ++ m.policyData.resourceId⟩

end IkgtUsage
