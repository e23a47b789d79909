import IkgtUsage.Handler.Framework
import IkgtUsage.Handler.Table

/-!
# The handler's resource tables (`cpu_cr0.c`, `cpu_cr4.c`, `cpu_msr.c`)

`cr0_res_id_mask_table` and `cr4_res_id_mask_table` give each control register resource its bit,
`msr_res_id_table` gives five of the seven MSR resources their MSR number.

What the handlers of one control register share is a `ControlReg`: the register, its mask table
and its range test. It carries the facts the handlers rest on: each mask is one bit, no two rows
share a bit, and the ids in the range are exactly the ids of the rows.
-/

namespace IkgtUsage

/-! ## Control registers -/

/-- A row `{mask, resource_id}` of a mask table. -/
structure MaskRow where
  mask : U32
  resourceId : ResourceId
  deriving DecidableEq, Repr

/-- `cr0_res_id_mask_table`. -/
def cr0ResIdMaskTable : List MaskRow :=
  [⟨PE, .cr0Pe⟩, ⟨MP, .cr0Mp⟩, ⟨EM, .cr0Em⟩, ⟨TS, .cr0Ts⟩, ⟨ET, .cr0Et⟩, ⟨NE, .cr0Ne⟩,
    ⟨WP, .cr0Wp⟩, ⟨AM, .cr0Am⟩, ⟨NW, .cr0Nw⟩, ⟨CD, .cr0Cd⟩, ⟨PG, .cr0Pg⟩]

/-- `cr4_res_id_mask_table`. -/
def cr4ResIdMaskTable : List MaskRow :=
  [⟨VME, .cr4Vme⟩, ⟨PVI, .cr4Pvi⟩, ⟨TSD, .cr4Tsd⟩, ⟨DE, .cr4De⟩, ⟨PSE, .cr4Pse⟩, ⟨PAE, .cr4Pae⟩,
    ⟨MCE, .cr4Mce⟩, ⟨PGE, .cr4Pge⟩, ⟨PCE, .cr4Pce⟩, ⟨OSFXSR, .cr4Osfxsr⟩,
    ⟨OSXMMEXCPT, .cr4Osxmmexcpt⟩, ⟨VMXE, .cr4Vmxe⟩, ⟨SMXE, .cr4Smxe⟩, ⟨PCIDE, .cr4Pcide⟩,
    ⟨OSXSAVE, .cr4Osxsave⟩, ⟨SMEP, .cr4Smep⟩, ⟨SMAP, .cr4Smap⟩]

/-- What the policy code of one control register is made of. -/
structure ControlReg where
  /-- The register in an event. -/
  eventReg : IkgtCpuReg
  /-- The register in the VMCS. -/
  vmcsReg : VmcsReg
  maskTable : List MaskRow
  /-- The range test `IS_CRx_ENTRY`. -/
  isEntry : PolicyEntry → Bool
  mask_bit : ∀ row ∈ maskTable, ∃ n < 32, row.mask = BIT n
  mask_injective : ∀ row ∈ maskTable, ∀ row' ∈ maskTable, row.mask = row'.mask → row = row'
  isEntry_iff : ∀ e, isEntry e = true ↔ ∃ row ∈ maskTable, row.resourceId.code = e.resourceId

/-- A range test, for a table whose rows have consecutive ids. -/
theorem in_range_iff {table : List MaskRow} (lo hi : Nat) (hle : lo ≤ hi) (hhi : hi < 2 ^ 32)
    (hcodes : table.map (fun row => row.resourceId.code) =
      (List.range' lo (hi + 1 - lo)).map (BitVec.ofNat 32)) (id : U32) :
    BitVec.ofNat 32 lo ≤ id ∧ id ≤ BitVec.ofNat 32 hi ↔
      ∃ row ∈ table, row.resourceId.code = id := by
  rw [← List.mem_map, hcodes, List.mem_map]
  simp only [List.mem_range'_1, BitVec.le_def, BitVec.toNat_ofNat]
  rw [Nat.mod_eq_of_lt hhi, Nat.mod_eq_of_lt (lt_of_le_of_lt hle hhi)]
  constructor
  · rintro ⟨hlo, hup⟩
    exact ⟨id.toNat, by omega, by simp⟩
  · rintro ⟨n, hn, rfl⟩
    rw [BitVec.toNat_ofNat, Nat.mod_eq_of_lt (by omega)]
    omega

/-- CR0. -/
def cr0 : ControlReg where
  eventReg := .cr0
  vmcsReg := .cr0
  maskTable := cr0ResIdMaskTable
  isEntry := PolicyEntry.isCr0Entry
  mask_bit := by decide
  mask_injective := by decide
  isEntry_iff e := decide_eq_true_iff.trans
    (in_range_iff 1 11 (by decide) (by decide) (by decide) e.resourceId)

/-- CR4. -/
def cr4 : ControlReg where
  eventReg := .cr4
  vmcsReg := .cr4
  maskTable := cr4ResIdMaskTable
  isEntry := PolicyEntry.isCr4Entry
  mask_bit := by decide
  mask_injective := by decide
  isEntry_iff e := decide_eq_true_iff.trans
    (in_range_iff 12 28 (by decide) (by decide) (by decide) e.resourceId)

namespace ControlReg

variable (k : ControlReg)

/-- `crx_res_id_to_mask`. -/
def resIdToMask (resourceId : U32) : U64 :=
  match k.maskTable.find? fun row => row.resourceId.code = resourceId with
  | some row => row.mask.zeroExtend 64
  | none => 0

/-- Bit `b` of the register is the resource `id`. -/
def BitOf (b : Nat) (id : U32) : Prop := (k.resIdToMask id).getLsbD b = true

instance (b : Nat) (id : U32) : Decidable (k.BitOf b id) := by unfold BitOf; infer_instance

variable {k}

theorem getLsbD_BIT {n b : Nat} (hn : n < 32) :
    ((BIT n).zeroExtend 64).getLsbD b = decide (b = n) := by
  unfold BIT
  rw [BitVec.getLsbD_setWidth, BitVec.getLsbD_shiftLeft, BitVec.getLsbD_one]
  by_cases hb : b = n
  · subst hb
    simp
    omega
  · simp [hb]
    omega

theorem resIdToMask_eq {id : U32} {b : Nat} (h : k.BitOf b id) :
    ∃ row ∈ k.maskTable, row.resourceId.code = id ∧ row.mask = BIT b ∧ b < 32 := by
  unfold BitOf resIdToMask at h
  split at h
  · rename_i row hrow
    have hmem := List.mem_of_find?_eq_some hrow
    obtain ⟨n, hn, hmask⟩ := k.mask_bit row hmem
    rw [hmask, getLsbD_BIT hn, decide_eq_true_eq] at h
    subst h
    exact ⟨row, hmem, by simpa using List.find?_some hrow, hmask, hn⟩
  · simp at h

/-- A bit belongs to one resource. -/
theorem BitOf.unique {b : Nat} {id id' : U32} (h : k.BitOf b id) (h' : k.BitOf b id') :
    id = id' := by
  obtain ⟨row, hmem, hid, hmask, -⟩ := resIdToMask_eq h
  obtain ⟨row', hmem', hid', hmask', -⟩ := resIdToMask_eq h'
  rw [← hid, ← hid', k.mask_injective row hmem row' hmem' (hmask.trans hmask'.symm)]

/-- The resource of a bit passes the range test. -/
theorem BitOf.isEntry {b : Nat} {e : PolicyEntry} (h : k.BitOf b e.resourceId) :
    k.isEntry e = true := by
  obtain ⟨row, hmem, hid, -⟩ := resIdToMask_eq h
  exact (k.isEntry_iff e).mpr ⟨row, hmem, hid⟩

theorem BitOf.ne_unknown {b : Nat} {id : U32} (h : k.BitOf b id) : id ≠ resourceIdUnknown := by
  obtain ⟨row, -, hid, -⟩ := resIdToMask_eq h
  exact hid ▸ row.resourceId.code_ne_unknown

/-- An entry in the range has exactly one bit. -/
theorem exists_bitNo {e : PolicyEntry} (h : k.isEntry e = true) :
    ∃ n < 64, k.resIdToMask e.resourceId = BitVec.twoPow 64 n ∧
      ∀ b, k.BitOf b e.resourceId ↔ b = n := by
  obtain ⟨row, hmem, hid⟩ := (k.isEntry_iff e).mp h
  have hsome : (k.maskTable.find? fun r => r.resourceId.code = e.resourceId).isSome = true := by
    rw [List.find?_isSome]
    exact ⟨row, hmem, by simpa using hid⟩
  obtain ⟨row', hrow'⟩ := Option.isSome_iff_exists.mp hsome
  obtain ⟨n, hn, hmask⟩ := k.mask_bit row' (List.mem_of_find?_eq_some hrow')
  have hval : k.resIdToMask e.resourceId = (BIT n).zeroExtend 64 := by
    unfold resIdToMask
    rw [hrow', ← hmask]
  refine ⟨n, by omega, ?_, fun b => ?_⟩
  · rw [hval]
    apply BitVec.eq_of_getLsbD_eq
    intro i hi
    rw [getLsbD_BIT hn, BitVec.getLsbD_twoPow]
    by_cases hin : i = n
    · simp [hin]
      omega
    · simp [hin, Ne.symm hin]
  · unfold BitOf
    rw [hval, getLsbD_BIT hn, decide_eq_true_eq]

end ControlReg

/-! ## Model specific registers -/

def ia32MsrEfer : U32 := 0xC0000080
def ia32MsrSysenterCs : U32 := 0x174
def ia32MsrSysenterEsp : U32 := 0x175
def ia32MsrSysenterEip : U32 := 0x176
def ia32MsrSysenterPat : U32 := 0x277
def ia32MsrInvalid : U32 := 0

/-- `msr_res_id_table`: `RESOURCE_ID_MSR_STAR` and `RESOURCE_ID_MSR_LSTAR` have no row. -/
def msrResIdTable : List (U32 × ResourceId) :=
  [(ia32MsrEfer, .msrEfer), (ia32MsrSysenterCs, .msrSysenterCs),
    (ia32MsrSysenterEsp, .msrSysenterEsp), (ia32MsrSysenterEip, .msrSysenterEip),
    (ia32MsrSysenterPat, .msrSysenterPat)]

/-- `res_id_to_msr`. -/
def resIdToMsr (resourceId : U32) : U32 :=
  match msrResIdTable.find? fun row => row.2.code = resourceId with
  | some row => row.1
  | none => ia32MsrInvalid

end IkgtUsage
