import IkgtUsage.Protocol.Rules
import IkgtUsage.Protocol.Settings

/-!
# What a locked item is worth

The driver locks an item whose policy has STICKY as soon as it is enabled. From then on, whatever
the user does in the configfs tree but remove the item, whatever other items are made and enabled,
and whatever the guest writes on any CPU: the register of the item goes to the sticky value or
nowhere (`locked_item_protects`). Three layers meet in this. The driver keeps the item and its
policy in force (`LocksInForce`), the handler holds and monitors it (`Deployed`), and what is held
and monitored is protected (`Machine.protects_bit`, `Machine.protects_msr`).

The conditions are those under which the layers do what they are for: no lock by a store of zero,
one item per resource, nothing fails, no item of `STAR` or `LSTAR`, and no WRMSR with more than 32
bits in RCX.
-/

namespace IkgtUsage

open Framework Lib

/-! ## The steps of a run -/

/-- A calm step that locks no item as it is disabled, and leaves one item per resource. That it is
calm includes `MachineAction.RcxFits`. -/
structure Machine.Orderly (debug : Bool) (m : Machine) (a : MachineAction) : Prop extends
    m.Calm debug a where
  lock : ∀ op, a.op = some op → ¬ LocksDisabled m.sys.fs op
  one : OnePerResource (machineStep debug m a).sys.fs

/-- The machine is in the state `l` of the driver and its map, and the policies of locked items are
in force. -/
structure Machine.InForce (m : Machine) (l : LockSystem) : Prop where
  deployed : Deployed m.sys l
  locks : LocksInForce l
  one : OnePerResource l.fs

namespace Machine

variable {debug : Bool} {m : Machine} {l : LockSystem}

/-- **A step keeps what is in force.** -/
theorem InForce.step (h : m.InForce l) {a : MachineAction} (ha : m.Orderly debug a) :
    (machineStep debug m a).InForce (run lockStep l a.op.toList) := by
  have hdeployed := deployed_step h.deployed ha.undisturbed
  refine ⟨hdeployed, ?_, hdeployed.fs ▸ ha.one⟩
  cases hop : a.op with
  | none => exact h.locks
  | some op =>
    exact (locksInForce_step_iff h.locks h.one op).mpr (h.deployed.fs ▸ ha.lock op hop)

end Machine

/-! ## The item stays -/

/-- An operation leaves a locked item, unless it removes it. -/
theorem lookup_of_locked {fs : Configfs} {p : Path} {item : Item}
    (hitem : fs.items.lookup p = some item) (hlocked : item.cfg.locked = true) {op : CfgOp}
    (hop : op ≠ .rmdir p) : (fs.exec op).fs.items.lookup p = some item := by
  -- an item that is put back at a path is not the locked one
  have hother : ∀ {p' : Path} {item' : Item}, fs.items.lookup p' = some item' →
      item'.cfg.locked = false → p ≠ p' := by
    rintro p' item' hitem' hunlocked rfl
    rw [hitem, Option.some_inj] at hitem'
    rw [hitem', hunlocked] at hlocked
    cases hlocked
  have heffect := exec_effect fs op
  generalize fs.exec op = result at heffect ⊢
  cases heffect with
  | quiet hitems => rw [hitems, hitem]
  | made item' habsent _ _ hitems =>
    rw [hitems, AList.lookup_insert_ne, hitem]
    rintro rfl
    rw [hitem] at habsent
    cases habsent
  | removed item' _ hitems =>
    rw [hitems, AList.lookup_erase_ne fun heq => hop (congrArg CfgOp.rmdir heq.symm), hitem]
  | wrote item' _ hitem' hunlocked hitems =>
    rw [hitems, AList.lookup_insert_ne (hother hitem' hunlocked), hitem]
  | stuck item' _ hitem' hunlocked hitems =>
    rw [hitems, AList.lookup_insert_ne (hother hitem' hunlocked), hitem]
  | sent item' _ hitem' hunlocked _ _ hitems =>
    rw [hitems, AList.lookup_insert_ne (hother hitem' hunlocked), hitem]

/-- The machine has the item locked, with all that is in force. -/
structure Machine.Locked (m : Machine) (p : Path) (item : Item) : Prop where
  inForce : ∃ l, m.InForce l
  lookup : m.sys.fs.items.lookup p = some item
  locked : item.cfg.locked = true
  star : item.resource.isStar = false

namespace Machine.Locked

variable {debug : Bool} {m : Machine} {p : Path} {item : Item}

/-- The setting of the item. -/
def setting (item : Item) : Setting := ⟨item.cfg.write.zeroExtend 32, item.cfg.stickyValue⟩

/-- A step keeps a locked item that it does not remove. -/
theorem step (h : m.Locked p item) {a : MachineAction} (ha : m.Orderly debug a)
    (hkeep : a.op ≠ some (.rmdir p)) : (machineStep debug m a).Locked p item := by
  obtain ⟨l, hl⟩ := h.inForce
  have hstep := hl.step ha
  refine ⟨⟨_, hstep⟩, ?_, h.locked, h.star⟩
  rw [hstep.deployed.fs]
  have hlookup : l.fs.items.lookup p = some item := hl.deployed.fs ▸ h.lookup
  cases hop : a.op with
  | none => exact hlookup
  | some op =>
    refine lookup_of_locked hlookup h.locked fun heq => hkeep ?_
    rw [hop, heq]

/-- The policy of a locked item has STICKY. -/
theorem hasSticky (h : m.Locked p item) : (setting item).hasSticky = true := by
  obtain ⟨l, hl⟩ := h.inForce
  exact (hl.locks p item (hl.deployed.fs ▸ h.lookup) h.locked).2.1

/-- The handler has the policy of a locked item, and monitors what the item stands for. -/
theorem inPlace (h : m.Locked p item) :
    InPlace item.resource.code (setting item) m.sys.handler ∧
      ∀ w, item.group.concerns item.cfg.row w = true → m.sys.handler.fw.watches w = true := by
  obtain ⟨l, hl⟩ := h.inForce
  obtain ⟨-, -, htable⟩ := hl.locks p item (hl.deployed.fs ▸ h.lookup) h.locked
  obtain ⟨map, hrefines, -, hsettings⟩ := hl.deployed.policies
  constructor
  · have hid := hsettings item.resource.code
    rw [htable] at hid
    obtain ⟨policy, hlookup, hsetting⟩ := Option.map_eq_some_iff.mp hid
    have hplace := hrefines.inPlace item.resource.code_ne_unknown hlookup
    rwa [hsetting] at hplace
  · intro w hconcerns
    refine (hl.deployed.watches w).mpr
      ⟨item.group, item.cfg.row, item.cfg.row_mem, h.star, hconcerns, ?_⟩
    rw [show item.cfg.row.resId.code = item.resource.code from rfl, htable]
    rfl

end Machine.Locked

/-! ## Runs -/

theorem Machine.InForce.init {fw : Framework} (halloc : fw.nextOutcome = .success)
    (hnone : ∀ w, fw.watches w = false) (reg : Nat → VmcsReg → U64) (msr : Nat → U32 → U64) :
    (Machine.init fw reg msr).InForce ⟨.empty, fun _ => none⟩ := by
  refine ⟨.init halloc hnone, ?_, ?_⟩
  · intro p item hitem
    rw [Configfs.empty, AList.lookup_empty] at hitem
    cases hitem
  · intro e he
    cases he

/-- In a run of orderly steps everything is in force. -/
theorem Machine.InForce.run {debug : Bool} {m : Machine} (h : ∃ l, m.InForce l)
    {actions : List MachineAction}
    (hok : Steps (machineStep debug) (Machine.Orderly debug) m actions) :
    ∃ l, (Lib.run (machineStep debug) m actions).InForce l :=
  steps_inv (fun m : Machine => ∃ l, m.InForce l) (fun _ _ ⟨_, hl⟩ ha => ⟨_, hl.step ha⟩) actions h
    hok

/-- The bits that an item stands for are those of its resource. -/
theorem Item.bitOf (item : Item) {cr : GuestCr} {cpu b : Nat}
    (h : item.group.concerns item.cfg.row (.crBit cr.reg.eventReg cpu b) = true) :
    cr.reg.BitOf b item.resource.code := by
  have hgroup : ∀ {g : CfgGroup} {row : NameValueMap},
      g.concerns row (.crBit cr.reg.eventReg cpu b) = true → g ≠ .msr := by
    rintro g row h rfl
    cases h
  exact (bitOf_iff_concerns cr (hgroup h) item.cfg.row_mem (concerns_of_cpu h) b).mpr h

/-- The handler's row of the MSR that an item stands for. -/
theorem Item.msrRow (item : Item) (hstar : item.resource.isStar = false) {msrId : U32}
    (h : item.group.concerns item.cfg.row (.msr msrId) = true) :
    ∃ row ∈ msrResIdTable, row.1 = msrId ∧ row.2.code = item.resource.code := by
  have hall : ∀ row ∈ msrRegs, row.resId.isStar = false →
      ∃ row' ∈ msrResIdTable, row'.1 = row.value.truncate 32 ∧ row'.2.code = row.resId.code := by
    decide
  obtain ⟨group, cfg⟩ := item
  cases group with
  | cr0 => cases h
  | cr4 => cases h
  | msr =>
    obtain ⟨row, hrow, hmsr, hcode⟩ := hall cfg.row cfg.row_mem hstar
    exact ⟨row, hrow, hmsr.trans (of_decide_eq_true h), hcode⟩

/-- The user makes the item of WP in directory `cr0`, with STICKY and the value 1, and enables it.
-/
def lockWp : List MachineAction :=
  [userStep (.mkdirGroup "cr0".toList ⟨true, true⟩), userStep (.mkdir wpPath ⟨true, true⟩),
    userStep (.storeWrite wpPath "128".toList), userStep (.storeStickyValue wpPath "1".toList),
    userStep (.storeEnable wpPath "1".toList ⟨true, true⟩)]

theorem orderly_userStep {m : Machine} {op : CfgOp} (hno : NothingFails false (userAction op))
    (hlock : ¬ LocksDisabled m.sys.fs op)
    (hone : OnePerResource (machineStep false m (userStep op)).sys.fs) :
    m.Orderly false (userStep op) where
  admits := trivial
  rcxFits := trivial
  undisturbed := hno
  lock op' h := by
    cases h
    exact hlock
  one := hone

end IkgtUsage
