import IkgtUsage.Common.Policy
import IkgtUsage.Lib.Slots

/-!
# `handler/policy.h`, `handler/policy.c`: the policy table

The table is an array of `POLICY_MAX_ENTRIES` slots, one per defined resource; a slot whose
`resource_id` is `RESOURCE_ID_UNKNOWN` is free. Its scan loops are `updateFirst` of
`Lib/Slots.lean`, so adding an entry is `put` on the slots and deleting one is `release`
(`slots_policyEntryAdd`, `slots_policyEntryDel`).

`TableInv` is the representation invariant: the ids of occupied slots are distinct and
`num_entries` counts them. Under it the table is a finite map from id to policy
(`toMap_policyEntryAdd`, `toMap_policyEntryDel`).

Not modelled: `add_default_policy` (its call is commented out), the debug printing, and the table's
`version` and `signature`, which nothing reads.
-/

namespace IkgtUsage

open Lib

/-! ## Entries -/

/-- `policy_entry_t`. -/
structure PolicyEntry where
  resourceId : U32
  flags : U32
  accessCount : U32
  rAction : U32
  wAction : U32
  xAction : U32
  stickyVal : U64
  resourceInfo : ResourceInfo
  deriving DecidableEq, Repr

/-- What a message says about a resource: the fields of an entry that a message sets. -/
structure Policy where
  rAction : U32
  wAction : U32
  xAction : U32
  stickyVal : U64
  resourceInfo : ResourceInfo
  deriving DecidableEq, Repr

/-- The policy a message carries. -/
def PolicyUpdateRec.policy (msg : PolicyUpdateRec) : Policy :=
  ⟨msg.rAction, msg.wAction, msg.xAction, msg.stickyVal, msg.resourceInfo⟩

namespace PolicyEntry

/-- The policy an entry holds. -/
def policy (e : PolicyEntry) : Policy :=
  ⟨e.rAction, e.wAction, e.xAction, e.stickyVal, e.resourceInfo⟩

/-- `POLICY_ENTRY_HAS_STICKY`. -/
def hasSticky (e : PolicyEntry) : Bool := e.wAction &&& policyActSticky ≠ 0

/-- `POLICY_ENTRY_W_HAS_SKIP`. -/
def wHasSkip (e : PolicyEntry) : Bool := e.wAction &&& policyActSkip ≠ 0

/-- `POLICY_ENTRY_W_HAS_LOG`. -/
def wHasLog (e : PolicyEntry) : Bool := e.wAction &&& policyActLog ≠ 0

/-- `POLICY_ENTRY_INC_ACCESS_COUNT`. -/
def incAccessCount (e : PolicyEntry) : PolicyEntry := { e with accessCount := e.accessCount + 1 }

/-- The two stores of `policy_entry_del`: mark as free, reset the access count. -/
def markFree (e : PolicyEntry) : PolicyEntry :=
  { e with resourceId := resourceIdUnknown, accessCount := 0 }

/-- `IS_CR0_ENTRY`. -/
def isCr0Entry (e : PolicyEntry) : Bool :=
  ResourceId.cr0Pe.code ≤ e.resourceId ∧ e.resourceId ≤ ResourceId.cr0Pg.code

/-- `IS_CR4_ENTRY`. -/
def isCr4Entry (e : PolicyEntry) : Bool :=
  ResourceId.cr4Vme.code ≤ e.resourceId ∧ e.resourceId ≤ ResourceId.cr4Smap.code

@[simp] theorem resourceId_incAccessCount (e : PolicyEntry) :
    e.incAccessCount.resourceId = e.resourceId := rfl

@[simp] theorem policy_incAccessCount (e : PolicyEntry) : e.incAccessCount.policy = e.policy := rfl

@[simp] theorem resourceId_markFree (e : PolicyEntry) :
    e.markFree.resourceId = resourceIdUnknown := rfl

end PolicyEntry

/-! ## The table -/

/-- `POLICY_MAX_ENTRIES`. -/
def policyMaxEntries : Nat := (resourceIdEnd - resourceIdStart).toNat

theorem policyMaxEntries_eq : policyMaxEntries = 35 := by decide

/-- `policy_table_t`. -/
structure PolicyTable where
  numEntries : U64
  policyEntry : List PolicyEntry
  length_policyEntry : policyEntry.length = policyMaxEntries
  deriving DecidableEq

/-- The table with other slots. -/
def PolicyTable.withSlots (t : PolicyTable) (slots : List PolicyEntry)
    (h : slots.length = t.policyEntry.length) : PolicyTable :=
  { t with policyEntry := slots, length_policyEntry := h.trans t.length_policyEntry }

/-- The table after a loop that updates its slots in place. -/
def PolicyTable.replaceSlots (t : PolicyTable) (slots : List PolicyEntry) : PolicyTable :=
  if h : slots.length = t.policyEntry.length then t.withSlots slots h else t

/-- A slot after `mon_memset` and the mark as free. -/
def freeSlot : PolicyEntry := ⟨resourceIdUnknown, 0, 0, 0, 0, 0, 0, ⟨0, 0, 0⟩⟩

/-- The table `policy_initialize` sets up. -/
def PolicyTable.initial : PolicyTable :=
  ⟨0, List.replicate policyMaxEntries freeSlot, List.length_replicate⟩

/-- `policy_entry_add`. -/
def policyEntryAdd (t : PolicyTable) (entry : PolicyEntry) : PolicyTable :=
  if t.policyEntry.any (fun e => e.resourceId = entry.resourceId) then
    -- overwrite the existing entry
    t.withSlots (updateFirst (fun e => e.resourceId = entry.resourceId) (fun _ => entry)
      t.policyEntry) (length_updateFirst _ _ _)
  else if t.policyEntry.any (fun e => e.resourceId = resourceIdUnknown) then
    -- found a free slot
    { t.withSlots (updateFirst (fun e => e.resourceId = resourceIdUnknown) (fun _ => entry)
        t.policyEntry) (length_updateFirst _ _ _) with numEntries := t.numEntries + 1 }
  else t

/-- `policy_entry_del`. -/
def policyEntryDel (t : PolicyTable) (entry : PolicyEntry) : PolicyTable :=
  if t.policyEntry.any (fun e => e.resourceId = entry.resourceId) then
    { t.withSlots (updateFirst (fun e => e.resourceId = entry.resourceId) PolicyEntry.markFree
        t.policyEntry) (length_updateFirst _ _ _) with
      numEntries := if t.numEntries ≠ 0 then t.numEntries - 1 else t.numEntries }
  else t

/-- `policy_msg_to_entry`: every field but `flags` is written; `flags` is what `entry` held. -/
def policyMsgToEntry (msg : PolicyUpdateRec) (flags : U32) : PolicyEntry where
  resourceId := msg.resourceId
  flags := flags
  accessCount := 0
  rAction := msg.rAction
  wAction := msg.wAction
  xAction := msg.xAction
  stickyVal := msg.stickyVal
  resourceInfo := msg.resourceInfo

@[simp] theorem resourceId_policyMsgToEntry (msg : PolicyUpdateRec) (flags : U32) :
    (policyMsgToEntry msg flags).resourceId = msg.resourceId := rfl

@[simp] theorem policy_policyMsgToEntry (msg : PolicyUpdateRec) (flags : U32) :
    (policyMsgToEntry msg flags).policy = msg.policy := rfl

/-! ## The table as a slot array -/

/-- The occupied slots, read as a map from id to policy. -/
def PolicyTable.toMap (t : PolicyTable) : Finmap fun _ : U32 => Policy :=
  Lib.toMap PolicyEntry.resourceId resourceIdUnknown PolicyEntry.policy t.policyEntry

theorem slots_policyEntryAdd (t : PolicyTable) (entry : PolicyEntry) :
    (policyEntryAdd t entry).policyEntry =
      put PolicyEntry.resourceId resourceIdUnknown entry t.policyEntry := by
  unfold policyEntryAdd put
  split
  · rfl
  · split
    · rfl
    · rename_i hfull
      exact (updateFirst_of_none (by simpa using hfull)).symm

theorem slots_policyEntryDel (t : PolicyTable) (entry : PolicyEntry) :
    (policyEntryDel t entry).policyEntry =
      release PolicyEntry.resourceId entry.resourceId PolicyEntry.markFree t.policyEntry := by
  unfold policyEntryDel release
  split
  · rfl
  · rename_i habsent
    exact (updateFirst_of_none (by simpa using habsent)).symm

/-- **The representation invariant.** -/
structure TableInv (t : PolicyTable) : Prop where
  distinct : Distinct PolicyEntry.resourceId resourceIdUnknown t.policyEntry
  count : t.numEntries.toNat =
    (usedKeys PolicyEntry.resourceId resourceIdUnknown t.policyEntry).length

theorem usedKeys_initial :
    usedKeys PolicyEntry.resourceId resourceIdUnknown PolicyTable.initial.policyEntry = [] := by
  decide

theorem tableInv_initial : TableInv .initial where
  distinct := by
    unfold Distinct
    rw [usedKeys_initial]
    exact List.nodup_nil
  count := by rw [usedKeys_initial]; rfl

theorem toMap_initial : PolicyTable.initial.toMap = ∅ := by
  refine Finmap.ext_lookup fun id => ?_
  rw [Finmap.lookup_empty, Finmap.lookup_eq_none, PolicyTable.toMap, mem_toMap,
    usedKeys_initial]
  exact List.not_mem_nil

/-- The search of `policy_entry_add` and `policy_entry_del` finds the ids in use. -/
theorem any_resourceId_iff {es : List PolicyEntry} {id : U32} (hid : id ≠ resourceIdUnknown) :
    es.any (fun e => e.resourceId = id) = true ↔
      id ∈ usedKeys PolicyEntry.resourceId resourceIdUnknown es := by
  rw [List.any_eq_true, mem_usedKeys]
  simp only [decide_eq_true_eq]
  exact (and_iff_right hid).symm

namespace TableInv

variable {t : PolicyTable}

/-- `num_entries` is at most `POLICY_MAX_ENTRIES`. -/
theorem numEntries_le (h : TableInv t) : t.numEntries.toNat ≤ policyMaxEntries := by
  rw [h.count, ← t.length_policyEntry]
  exact length_usedKeys_le _

/-- Adding an entry keeps the invariant: an overwrite keeps the ids, a free slot adds one. -/
theorem add (h : TableInv t) {entry : PolicyEntry} (hid : entry.resourceId ≠ resourceIdUnknown) :
    TableInv (policyEntryAdd t entry) := by
  refine ⟨?_, ?_⟩
  · rw [slots_policyEntryAdd]
    exact distinct_put hid h.distinct
  · rw [slots_policyEntryAdd]
    by_cases hmem :
        entry.resourceId ∈ usedKeys PolicyEntry.resourceId resourceIdUnknown t.policyEntry
    · rw [usedKeys_put_of_mem hmem, ← h.count]
      unfold policyEntryAdd
      rw [if_pos ((any_resourceId_iff hid).mpr hmem)]
      rfl
    · unfold policyEntryAdd
      rw [if_neg (mt (any_resourceId_iff hid).mp hmem)]
      by_cases hroom : (usedKeys PolicyEntry.resourceId resourceIdUnknown t.policyEntry).length <
          t.policyEntry.length
      · rw [if_pos (any_free_iff.mpr hroom), (usedKeys_put_perm hid hmem hroom).length_eq,
          List.length_cons, ← h.count]
        have hle := h.numEntries_le
        rw [policyMaxEntries_eq] at hle
        change (t.numEntries + 1).toNat = t.numEntries.toNat + 1
        rw [BitVec.toNat_add]
        exact Nat.mod_eq_of_lt (by change t.numEntries.toNat + 1 < 2 ^ 64; omega)
      · rw [if_neg (mt any_free_iff.mp hroom), put_of_full hid (by unfold Room; tauto), h.count]

/-- Deleting an entry keeps the invariant: the counter is positive when a slot was occupied. -/
theorem del (h : TableInv t) {entry : PolicyEntry} (hid : entry.resourceId ≠ resourceIdUnknown) :
    TableInv (policyEntryDel t entry) := by
  refine ⟨?_, ?_⟩
  · rw [slots_policyEntryDel]
    exact distinct_release PolicyEntry.resourceId_markFree hid h.distinct
  · rw [slots_policyEntryDel]
    unfold policyEntryDel
    by_cases hmem :
        entry.resourceId ∈ usedKeys PolicyEntry.resourceId resourceIdUnknown t.policyEntry
    · rw [if_pos ((any_resourceId_iff hid).mpr hmem)]
      have hperm := usedKeys_release_perm PolicyEntry.resourceId_markFree hmem
      have hlen := hperm.length_eq
      rw [List.length_cons, ← h.count] at hlen
      have hne : t.numEntries ≠ 0 := by
        intro h0
        rw [h0] at hlen
        exact absurd hlen (by simp)
      change (if t.numEntries ≠ 0 then t.numEntries - 1 else t.numEntries).toNat = _
      rw [if_pos hne, BitVec.toNat_sub_of_le (by bv_omega), hlen]
      rfl
    · rw [if_neg (mt (any_resourceId_iff hid).mp hmem), release_of_absent hid hmem, h.count]

/-- **Adding is the bounded insertion of the map.** -/
theorem toMap_add (h : TableInv t) {entry : PolicyEntry}
    (hid : entry.resourceId ≠ resourceIdUnknown) :
    (policyEntryAdd t entry).toMap =
      insertBounded policyMaxEntries entry.resourceId entry.policy t.toMap := by
  unfold PolicyTable.toMap
  rw [slots_policyEntryAdd, Lib.toMap_put PolicyEntry.policy hid h.distinct, t.length_policyEntry]

/-- **Deleting is the erasure of the map.** -/
theorem toMap_del (h : TableInv t) {entry : PolicyEntry}
    (hid : entry.resourceId ≠ resourceIdUnknown) :
    (policyEntryDel t entry).toMap = t.toMap.erase entry.resourceId := by
  unfold PolicyTable.toMap
  rw [slots_policyEntryDel]
  exact Lib.toMap_release PolicyEntry.policy PolicyEntry.resourceId_markFree hid h.distinct

end TableInv

end IkgtUsage
