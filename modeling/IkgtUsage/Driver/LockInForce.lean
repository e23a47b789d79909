import IkgtUsage.Driver.StickyLock

/-!
# Whether a locked item's policy is in force

An item is locked so that its sticky policy cannot be taken back. The driver does not see the
handler's table; `LockSystem.table` records what the last message delivered for each id asked for.
A store to `enable` locks the item whenever its `write` has STICKY, also a store of zero, which
takes the policy back. `lock_in_force_iff` says that this is the only way to a locked item whose
policy is not in force.
-/

namespace IkgtUsage

open Lib

/-! ## The driver with the handler's table -/

/-- The write action and the sticky value of an entry. -/
structure Setting where
  wAction : U32
  stickyVal : U64
  deriving DecidableEq, Repr

/-- The tree, and for each id what the last message delivered for it asked for. -/
structure LockSystem where
  fs : Configfs
  table : U32 → Option Setting

/-- What a message asks for. -/
def PolicyMessage.asks (msg : PolicyMessage) : Option Setting :=
  if msg.command = CommandCode.policyEntryEnable.code then
    some ⟨msg.policyData.wAction, msg.policyData.stickyVal⟩
  else none

/-- The hypercall of the operation succeeds. -/
def CfgOp.delivered : CfgOp → Bool
  | .storeEnable _ _ answers => answers.delivered
  | _ => false

/-- The table after an operation that sent `sent`. -/
def tableAfter (op : CfgOp) (table : U32 → Option Setting) :
    Option PolicyMessage → U32 → Option Setting
  | none => table
  | some msg =>
    if op.delivered then Function.update table msg.policyData.resourceId msg.asks else table

/-- One operation of the user. -/
def lockStep (s : LockSystem) (op : CfgOp) : LockSystem :=
  ⟨(s.fs.exec op).fs, tableAfter op s.table (s.fs.exec op).sent⟩

/-- No two items are of one resource. -/
def OnePerResource (fs : Configfs) : Prop :=
  ∀ e ∈ fs.items.entries, ∀ e' ∈ fs.items.entries, e.2.resource = e'.2.resource → e.1 = e'.1

instance (fs : Configfs) : Decidable (OnePerResource fs) := by
  unfold OnePerResource; infer_instance

theorem OnePerResource.path_eq {fs : Configfs} (h : OnePerResource fs) {p p' : Path}
    {item item' : Item} (hitem : fs.items.lookup p = some item)
    (hitem' : fs.items.lookup p' = some item') (hres : item.resource = item'.resource) : p = p' :=
  h ⟨p, item⟩ (AList.mem_lookup_iff.mp hitem) ⟨p', item'⟩ (AList.mem_lookup_iff.mp hitem') hres

/-- A locked item has its policy in force: it is enabled with STICKY, and the table has its
settings. -/
def Item.InForce (item : Item) (table : U32 → Option Setting) : Prop :=
  item.cfg.enable = true ∧ item.cfg.writeSticky = true ∧
    table item.resource.code = some ⟨item.cfg.write.zeroExtend 32, item.cfg.stickyValue⟩

/-- All locked items have. -/
def LocksInForce (s : LockSystem) : Prop :=
  ∀ p item, s.fs.items.lookup p = some item → item.cfg.locked = true → item.InForce s.table

/-- The operation is a successful store of zero to `enable` of an item that is not locked and whose
`write` has STICKY. -/
def LocksDisabled (fs : Configfs) : CfgOp → Prop
  | .storeEnable p page answers => ∃ item ∈ fs.items.lookup p, item.cfg.locked = false ∧
      item.cfg.writeSticky = true ∧ kstrtoul page 0 = some 0 ∧ answers.allocated = true ∧
      answers.delivered = true
  | _ => False

/-! ## One operation -/

/-- Such a store leaves a locked item that is not enabled. -/
theorem LocksDisabled.not_inForce {s : LockSystem} {op : CfgOp} (h : LocksDisabled s.fs op) :
    ¬ LocksInForce (lockStep s op) := by
  cases op with
  | storeEnable p page answers =>
    obtain ⟨item, hitem, hunlocked, hsticky, hvalue, hallocated, hdelivered⟩ := h
    intro hforce
    unfold lockStep at hforce
    rw [exec_storeEnable hitem hunlocked hvalue hallocated, if_pos hdelivered] at hforce
    have hlocked : (item.cfg.enabled 0).locked = true := by simp [Cfg.enabled, hsticky]
    have henable := (hforce p _ (AList.lookup_insert _) hlocked).1
    simp [Cfg.enabled] at henable
  | mkdirGroup => exact h.elim
  | rmdirGroup => exact h.elim
  | mkdir => exact h.elim
  | rmdir => exact h.elim
  | storeWrite => exact h.elim
  | storeStickyValue => exact h.elim

/-- An operation that sends nothing and locks no item. -/
theorem LocksInForce.silent {s s' : LockSystem} (h : LocksInForce s) (htable : s'.table = s.table)
    (hkeep : ∀ p item, s'.fs.items.lookup p = some item → item.cfg.locked = true →
      s.fs.items.lookup p = some item) : LocksInForce s' :=
  fun p item hitem hlocked => htable ▸ h p item (hkeep p item hitem hlocked) hlocked

/-- An operation that sends nothing and leaves an item that is not locked at one path. -/
theorem LocksInForce.replaces {s s' : LockSystem} (h : LocksInForce s) (htable : s'.table = s.table)
    {p : Path} (item : Item) (hunlocked : item.cfg.locked = false)
    (hitems : s'.fs.items = s.fs.items.insert p item) : LocksInForce s' := by
  refine h.silent htable fun p' item' hitem' hlocked => ?_
  rw [hitems] at hitem'
  by_cases hp : p' = p
  · rw [hp, AList.lookup_insert, Option.some_inj] at hitem'
    rw [← hitem', hunlocked] at hlocked
    cases hlocked
  · rwa [AList.lookup_insert_ne hp] at hitem'

/-- **The settings of an item are sent.** -/
theorem LocksInForce.sends {s s' : LockSystem} (h : LocksInForce s) (hone : OnePerResource s.fs)
    {p : Path} {item : Item} {value : U64} (hitem : s.fs.items.lookup p = some item)
    (hunlocked : item.cfg.locked = false) (hvalue : item.cfg.writeSticky = true → value ≠ 0)
    (hitems : s'.fs.items = s.fs.items.insert p ⟨item.group, item.cfg.enabled value⟩)
    (htable : s'.table = Function.update s.table item.resource.code
      (policyMessage item.cfg item.cfg.row (value ≠ 0)).asks) : LocksInForce s' := by
  intro p' item' hitem' hlocked
  rw [hitems] at hitem'
  rw [htable]
  by_cases hp : p' = p
  · -- the item itself: it is locked because it has STICKY
    rw [hp, AList.lookup_insert, Option.some_inj] at hitem'
    subst hitem'
    have hsticky : item.cfg.writeSticky = true := by
      simpa [Cfg.enabled, hunlocked] using hlocked
    have hne := hvalue hsticky
    refine ⟨by simpa [Cfg.enabled] using hne, hsticky, ?_⟩
    refine (Function.update_self _ _ _).trans ?_
    rw [decide_eq_true hne]
    rfl
  · rw [AList.lookup_insert_ne hp] at hitem'
    have hcode : item'.resource.code ≠ item.resource.code := fun heq =>
      hp (hone.path_eq hitem' hitem (ResourceId.code_injective heq))
    obtain ⟨henable, hsticky, hentry⟩ := h p' item' hitem' hlocked
    exact ⟨henable, hsticky, by rw [Function.update_of_ne hcode, hentry]⟩

/-- **One operation** keeps the locked policies in force exactly if it does not lock an item by
disabling it. -/
theorem locksInForce_step_iff {s : LockSystem} (h : LocksInForce s) (hone : OnePerResource s.fs)
    (op : CfgOp) : LocksInForce (lockStep s op) ↔ ¬ LocksDisabled s.fs op := by
  refine ⟨fun hforce hlocks => hlocks.not_inForce hforce, fun hno => ?_⟩
  have heffect := exec_effect s.fs op
  obtain ⟨result, hresult⟩ : ∃ result, result = s.fs.exec op := ⟨_, rfl⟩
  have hfs : (lockStep s op).fs = result.fs := by rw [hresult]; rfl
  have htable : (lockStep s op).table = tableAfter op s.table result.sent := by rw [hresult]; rfl
  have hsilent : result.sent = none → (lockStep s op).table = s.table := by
    intro hsent
    rw [htable, hsent]
    rfl
  rw [← hresult] at heffect
  cases heffect with
  | quiet hitems hsent _ =>
    exact h.silent (hsilent hsent) fun p item hitem _ => by rwa [hfs, hitems] at hitem
  | made item _ _ hunlocked hitems hsent =>
    exact h.replaces (hsilent hsent) item hunlocked (hfs ▸ hitems)
  | @removed p _ item hitem hitems hsent =>
    refine h.silent (hsilent hsent) fun p' item' hitem' _ => ?_
    rw [hfs, hitems] at hitem'
    by_cases hp : p' = p
    · rw [hp, AList.lookup_erase] at hitem'
      cases hitem'
    · rwa [AList.lookup_erase_ne hp] at hitem'
  | wrote item value _ hunlocked hitems hsent _ =>
    exact h.replaces (hsilent hsent) ⟨item.group, { item.cfg with write := value.truncate 8 }⟩
      hunlocked (hfs ▸ hitems)
  | stuck item value _ hunlocked hitems hsent _ =>
    exact h.replaces (hsilent hsent) ⟨item.group, { item.cfg with stickyValue := value }⟩
      hunlocked (hfs ▸ hitems)
  | @sent p page answers _ item value hitem hunlocked hvalue hallocated hitems hsent _ =>
    have hasked : tableAfter (.storeEnable p page answers) s.table result.sent =
        if answers.delivered then Function.update s.table item.resource.code
          (policyMessage item.cfg item.cfg.row (value ≠ 0)).asks
        else s.table := by
      rw [hsent]
      rfl
    rw [hasked] at htable
    cases hdelivered : answers.delivered with
    | false =>
      rw [hdelivered] at hitems htable
      exact h.replaces htable _ hunlocked (hfs ▸ hitems)
    | true =>
      rw [hdelivered] at hitems htable
      refine h.sends hone hitem hunlocked (fun hsticky hzero => hno ?_) (hfs ▸ hitems) htable
      exact ⟨item, hitem, hunlocked, hsticky, hzero ▸ hvalue, hallocated, hdelivered⟩

/-! ## Runs -/

/-- The operation leaves one item per resource. -/
def KeepsOnePerResource (s : LockSystem) (op : CfgOp) : Prop := OnePerResource (lockStep s op).fs

/-- **When locked items have their policy in force.** In every run that makes at most one item per
resource, from the empty tree and any table: every state reached has the policies of its locked
items in force, if and only if no operation of the run is a successful store of zero to `enable` of
an item that is not locked and whose `write` has STICKY. -/
theorem lock_in_force_iff (table : U32 → Option Setting) {ops : List CfgOp}
    (hone : Steps lockStep KeepsOnePerResource ⟨.empty, table⟩ ops) :
    Steps lockStep (fun s op => LocksInForce (lockStep s op)) ⟨.empty, table⟩ ops ↔
      Steps lockStep (fun s op => ¬ LocksDisabled s.fs op) ⟨.empty, table⟩ ops := by
  refine steps_congr (fun s => LocksInForce s ∧ OnePerResource s.fs)
    (fun s op hinv _ => locksInForce_step_iff hinv.1 hinv.2 op)
    (fun s op _ hkeep hforce => ⟨hforce, hkeep⟩) ops ⟨?_, ?_⟩ hone
  · intro p item hitem
    rw [Configfs.empty, AList.lookup_empty] at hitem
    cases hitem
  · intro e he
    exact absurd he List.not_mem_nil

/-- The user makes `PE` sticky, enables it, and tries to disable it. -/
theorem lock_in_force_iff_pe :
    let ops := stickyPe ++ [enable (cr0Path "PE"),
      .storeEnable (cr0Path "PE") "0".toList ⟨true, true⟩]
    Steps lockStep (fun s op => LocksInForce (lockStep s op)) ⟨.empty, fun _ => none⟩ ops ↔
      Steps lockStep (fun s op => ¬ LocksDisabled s.fs op) ⟨.empty, fun _ => none⟩ ops := by
  refine lock_in_force_iff _ ?_
  unfold stickyPe
  refine ⟨?_, ?_, ?_, ?_, ?_, trivial⟩ <;> unfold KeepsOnePerResource <;> decide +kernel

/-- **Disabling locks.** A sticky item that is disabled before it was ever enabled is locked, while
its policy is not in force. -/
theorem disabled_locked :
    let s := run lockStep ⟨.empty, fun _ => none⟩
      (stickyPe ++ [.storeEnable (cr0Path "PE") "0".toList ⟨true, true⟩])
    OnePerResource s.fs ∧
      ∃ item, s.fs.items.lookup (cr0Path "PE") = some item ∧ item.cfg.locked = true ∧
        item.cfg.enable = false ∧ s.table item.resource.code = none :=
  ⟨by decide +kernel, _, rfl, by decide +kernel, by decide +kernel, by decide +kernel⟩

end IkgtUsage
