import IkgtUsage.Driver.Kernel

/-!
# `driver/cr0.c`, `cr4.c`, `msr.c`: the policy items

An item stands for one resource and holds the settings the user stores; a store to `enable` sends
them to the handler. The three files are alike: a `CfgKind` holds what they differ in, and each
function of a file is the common one at its kind.

An item carries its name, which is in the table of its kind: it is built by `make_item`, which
checks that.
-/

namespace IkgtUsage

/-! ## The tables -/

/-- `name_value_map`. -/
structure NameValueMap where
  name : List Char
  value : U64
  resId : ResourceId
  deriving DecidableEq, Repr

/-- A row of a control register table: the value is a bit of an `unsigned long`. -/
def NameValueMap.ofBit (name : String) (bit : U32) (resId : ResourceId) : NameValueMap :=
  ⟨name.toList, bit.zeroExtend 64, resId⟩

/-- `cr0_bits`. -/
def cr0Bits : List NameValueMap :=
  [.ofBit "PE" PE .cr0Pe, .ofBit "MP" MP .cr0Mp, .ofBit "EM" EM .cr0Em, .ofBit "TS" TS .cr0Ts,
    .ofBit "ET" ET .cr0Et, .ofBit "NE" NE .cr0Ne, .ofBit "WP" WP .cr0Wp, .ofBit "AM" AM .cr0Am,
    .ofBit "NW" NW .cr0Nw, .ofBit "CD" CD .cr0Cd, .ofBit "PG" PG .cr0Pg]

/-- `cr4_bits`. -/
def cr4Bits : List NameValueMap :=
  [.ofBit "VME" VME .cr4Vme, .ofBit "PVI" PVI .cr4Pvi, .ofBit "TSD" TSD .cr4Tsd,
    .ofBit "DE" DE .cr4De, .ofBit "PSE" PSE .cr4Pse, .ofBit "PAE" PAE .cr4Pae,
    .ofBit "MCE" MCE .cr4Mce, .ofBit "PGE" PGE .cr4Pge, .ofBit "PCE" PCE .cr4Pce,
    .ofBit "OSFXSR" OSFXSR .cr4Osfxsr, .ofBit "OSXMMEXCPT" OSXMMEXCPT .cr4Osxmmexcpt,
    .ofBit "VMXE" VMXE .cr4Vmxe, .ofBit "SMXE" SMXE .cr4Smxe, .ofBit "PCIDE" PCIDE .cr4Pcide,
    .ofBit "OSXSAVE" OSXSAVE .cr4Osxsave, .ofBit "SMEP" SMEP .cr4Smep,
    .ofBit "SMAP" SMAP .cr4Smap]

/-- `msr_regs`. -/
def msrRegs : List NameValueMap :=
  [⟨"EFER".toList, 0xC0000080, .msrEfer⟩, ⟨"STAR".toList, 0xC0000081, .msrStar⟩,
    ⟨"LSTAR".toList, 0xC0000082, .msrLstar⟩, ⟨"SYSENTER_CS".toList, 0x174, .msrSysenterCs⟩,
    ⟨"SYSENTER_ESP".toList, 0x175, .msrSysenterEsp⟩,
    ⟨"SYSENTER_EIP".toList, 0x176, .msrSysenterEip⟩,
    ⟨"SYSENTER_PAT".toList, 0x277, .msrSysenterPat⟩]

/-- The error codes. -/
inductive Errno
  | eperm | enoent | enomem | eexist | einval | enotempty
  deriving DecidableEq, Repr

/-- What the three files differ in. -/
structure CfgKind where
  table : List NameValueMap
  /-- The `resource_info` words of a message. -/
  resourceInfo : NameValueMap → ResourceInfo
  /-- What creating an item of a wrong name gives: configfs takes `NULL` for `-ENOMEM`. -/
  badName : Errno

/-- `cr0.c`. -/
def cr0Kind : CfgKind := ⟨cr0Bits, fun row => ⟨row.value, .allOnes 64, .allOnes 64⟩, .enomem⟩

/-- `cr4.c`. -/
def cr4Kind : CfgKind := ⟨cr4Bits, fun row => ⟨row.value, .allOnes 64, .allOnes 64⟩, .einval⟩

/-- `msr.c`: a message for an MSR leaves the words as `kzalloc` does. -/
def msrKind : CfgKind := ⟨msrRegs, fun _ => ⟨0, 0, 0⟩, .enomem⟩

/-- `valid_crx_attr`: the row at the index found. -/
def CfgKind.validAttr (k : CfgKind) (name : List Char) : Option NameValueMap :=
  k.table.find? fun row => strcasecmp row.name name

/-- `valid_cr0_attr`. -/
def validCr0Attr : List Char → Option NameValueMap := cr0Kind.validAttr

/-- `valid_cr4_attr`. -/
def validCr4Attr : List Char → Option NameValueMap := cr4Kind.validAttr

/-- `valid_msr_attr`. -/
def validMsrAttr : List Char → Option NameValueMap := msrKind.validAttr

/-! ## The items -/

/-- `struct config_item`, with a name its kind accepts. -/
structure ConfigItem (k : CfgKind) where
  ciName : List Char
  valid : (k.validAttr ciName).isSome = true

/-- `struct cr0_cfg`, `struct cr4_cfg` and `struct msr_cfg`. -/
structure Cfg (k : CfgKind) where
  item : ConfigItem k
  enable : Bool
  locked : Bool
  write : BitVec 8
  stickyValue : U64

namespace Cfg

variable {k : CfgKind}

/-- The row of the item's name. -/
def row (cfg : Cfg k) : NameValueMap := (k.validAttr cfg.item.ciName).get cfg.item.valid

theorem validAttr_ciName (cfg : Cfg k) : k.validAttr cfg.item.ciName = some cfg.row :=
  (Option.some_get cfg.item.valid).symm

theorem row_mem (cfg : Cfg k) : cfg.row ∈ k.table :=
  List.mem_of_find?_eq_some cfg.validAttr_ciName

/-- `write & POLICY_ACT_STICKY`. -/
def writeSticky (cfg : Cfg k) : Bool := cfg.write.zeroExtend 32 &&& policyActSticky ≠ 0

end Cfg

/-- What the kernel and the hypervisor answer during one operation. -/
structure Answers where
  /-- The allocation succeeds. -/
  allocated : Bool
  /-- `ikgt_hypercall` returns `SUCCESS`. -/
  delivered : Bool
  deriving DecidableEq, Repr

/-- The message about an item. -/
def policyMessage {k : CfgKind} (cfg : Cfg k) (row : NameValueMap) (enable : Bool) :
    PolicyMessage where
  command := (if enable then CommandCode.policyEntryEnable else .policyEntryDisable).code
  count := 1
  policyData :=
    { resourceId := row.resId.code
      rAction := 0
      wAction := cfg.write.zeroExtend 32
      xAction := 0
      stickyVal := cfg.stickyValue
      resourceInfo := k.resourceInfo row }

/-- `policy_set_crx`: the message sent, if any, and whether it succeeds. -/
def policySet {k : CfgKind} (answers : Answers) (cfg : Cfg k) (enable : Bool) :
    Option PolicyMessage × Bool :=
  match k.validAttr cfg.item.ciName with
  | none => (none, false)
  | some row =>
    if !answers.allocated then (none, false)
    else (some (policyMessage cfg row enable), answers.delivered)

/-- `policy_set_cr0`. -/
def policySetCr0 : Answers → Cfg cr0Kind → Bool → Option PolicyMessage × Bool := policySet

/-- `policy_set_cr4`. -/
def policySetCr4 : Answers → Cfg cr4Kind → Bool → Option PolicyMessage × Bool := policySet

/-- `policy_set_msr`. -/
def policySetMsr : Answers → Cfg msrKind → Bool → Option PolicyMessage × Bool := policySet

/-! ## Stores -/

/-- What a store leaves: the item, the message sent, and the value returned. -/
structure StoreResult (k : CfgKind) where
  cfg : Cfg k
  sent : Option PolicyMessage
  ret : Except Errno Nat

/-- `crx_cfg_store_write`. -/
def cfgStoreWrite {k : CfgKind} (cfg : Cfg k) (page : List Char) : StoreResult k :=
  if cfg.locked then ⟨cfg, none, .error .eperm⟩
  else
    match kstrtoul page 0 with
    | none => ⟨cfg, none, .error .einval⟩
    | some value => ⟨{ cfg with write := value.truncate 8 }, none, .ok page.length⟩

/-- `crx_cfg_store_sticky_value`. -/
def cfgStoreStickyValue {k : CfgKind} (cfg : Cfg k) (page : List Char) : StoreResult k :=
  if cfg.locked then ⟨cfg, none, .error .eperm⟩
  else
    match kstrtoul page 0 with
    | none => ⟨cfg, none, .error .einval⟩
    | some value => ⟨{ cfg with stickyValue := value }, none, .ok page.length⟩

/-- `crx_cfg_store_enable`. -/
def cfgStoreEnable {k : CfgKind} (answers : Answers) (cfg : Cfg k) (page : List Char) :
    StoreResult k :=
  match kstrtoul page 0 with
  | none => ⟨cfg, none, .error .einval⟩
  | some value =>
    if cfg.locked then ⟨cfg, none, .error .eperm⟩
    else
      let (sent, ret) := policySet answers cfg (value ≠ 0)
      let cfg := if ret then { cfg with enable := value ≠ 0 } else cfg
      let cfg := if ret && cfg.writeSticky then { cfg with locked := true } else cfg
      ⟨cfg, sent, .ok page.length⟩

/-- `crx_make_item`. -/
def makeItem (k : CfgKind) (allocated : Bool) (name : List Char) : Except Errno (Cfg k) :=
  if h : (k.validAttr name).isSome = true then
    if !allocated then .error .enomem
    else .ok ⟨⟨name, h⟩, false, false, 0, 0⟩
  else .error k.badName

/-- `cr0_cfg_store_write`. -/
def cr0CfgStoreWrite : Cfg cr0Kind → List Char → StoreResult cr0Kind := cfgStoreWrite

/-- `cr0_cfg_store_sticky_value`. -/
def cr0CfgStoreStickyValue : Cfg cr0Kind → List Char → StoreResult cr0Kind := cfgStoreStickyValue

/-- `cr0_cfg_store_enable`. -/
def cr0CfgStoreEnable : Answers → Cfg cr0Kind → List Char → StoreResult cr0Kind := cfgStoreEnable

/-- `cr0_make_item`. -/
def cr0MakeItem : Bool → List Char → Except Errno (Cfg cr0Kind) := makeItem cr0Kind

/-- `cr4_cfg_store_write`. -/
def cr4CfgStoreWrite : Cfg cr4Kind → List Char → StoreResult cr4Kind := cfgStoreWrite

/-- `cr4_cfg_store_sticky_value`. -/
def cr4CfgStoreStickyValue : Cfg cr4Kind → List Char → StoreResult cr4Kind := cfgStoreStickyValue

/-- `cr4_cfg_store_enable`. -/
def cr4CfgStoreEnable : Answers → Cfg cr4Kind → List Char → StoreResult cr4Kind := cfgStoreEnable

/-- `cr4_make_item`. -/
def cr4MakeItem : Bool → List Char → Except Errno (Cfg cr4Kind) := makeItem cr4Kind

/-- `msr_cfg_store_write`. -/
def msrCfgStoreWrite : Cfg msrKind → List Char → StoreResult msrKind := cfgStoreWrite

/-- `msr_cfg_store_sticky_value`. -/
def msrCfgStoreStickyValue : Cfg msrKind → List Char → StoreResult msrKind := cfgStoreStickyValue

/-- `msr_cfg_store_enable`. -/
def msrCfgStoreEnable : Answers → Cfg msrKind → List Char → StoreResult msrKind := cfgStoreEnable

/-- `msr_make_item`. -/
def msrMakeItem : Bool → List Char → Except Errno (Cfg msrKind) := makeItem msrKind

end IkgtUsage
