import IkgtUsage.Driver.CfgEffect
import IkgtUsage.Lib.Run

/-!
# Locked resources

A store to `enable` whose settings have STICKY locks the item: further stores to it fail. The lock
is the item's, and the resource is chosen by a name that is compared without regard to case. So the
resource stays locked as long as the item is there and nobody uses another item of the resource
(`KeepsLock`): then no message names the resource again (`locked_stays_silent`). Otherwise the lock
can be passed by (`lock_bypassed`).
-/

namespace IkgtUsage

open Lib

/-- The item locks its resource with its policy enabled. -/
def Item.HoldsLock (item : Item) : Prop := item.cfg.locked = true ∧ item.cfg.enable = true

instance (item : Item) : Decidable item.HoldsLock := by unfold Item.HoldsLock; infer_instance

/-- The operation locks the resource `r`: a successful store of a nonzero value to `enable` of an
item whose `write` has STICKY. -/
def LocksResource (fs : Configfs) (op : CfgOp) (r : ResourceId) : Prop :=
  ∃ p page answers item value, op = .storeEnable p page answers ∧
    fs.items.lookup p = some item ∧ item.resource = r ∧ item.cfg.locked = false ∧
    item.cfg.writeSticky = true ∧ kstrtoul page 0 = some value ∧ value ≠ 0 ∧
    answers.allocated = true ∧ answers.delivered = true

/-- No item that holds a lock is removed, and no settings are sent through an item while another
item holds the lock of its resource. -/
def KeepsLock (fs : Configfs) : CfgOp → Prop
  | .rmdir p => ∀ item ∈ fs.items.lookup p, ¬ item.HoldsLock
  | .storeEnable p page answers => ∀ item ∈ fs.items.lookup p,
      item.cfg.locked = false → answers.allocated = true → (kstrtoul page 0).isSome = true →
      ∀ e ∈ fs.items.entries, e.2.resource = item.resource → ¬ e.2.HoldsLock
  | _ => True

instance (fs : Configfs) (op : CfgOp) : Decidable (KeepsLock fs op) := by
  cases op <;> unfold KeepsLock <;> infer_instance

/-- Some item holds the lock of the resource. -/
def Held (fs : Configfs) (r : ResourceId) : Prop :=
  ∃ p item, fs.items.lookup p = some item ∧ item.resource = r ∧ item.HoldsLock

namespace Held

variable {fs : Configfs} {op : CfgOp} {r : ResourceId}

/-- An operation that locks the resource leaves it held. -/
theorem of_locks (h : LocksResource fs op r) : Held (fs.step op) r := by
  obtain ⟨p, page, answers, item, value, rfl, hitem, hr, hunlocked, hsticky, hvalue, hne,
    hallocated, hdelivered⟩ := h
  unfold Configfs.step
  rw [exec_storeEnable hitem hunlocked hvalue hallocated, if_pos hdelivered]
  refine ⟨p, _, AList.lookup_insert _, hr, ?_, ?_⟩
  · simp [Cfg.enabled, hsticky]
  · simpa [Cfg.enabled] using hne

/-- **One operation.** A lock is kept, and the message sent, if any, is not about its resource. -/
theorem step (h : Held fs r) (hkeep : KeepsLock fs op) :
    Held (fs.step op) r ∧ ∀ msg ∈ (fs.exec op).sent, msg.policyData.resourceId ≠ r.code := by
  obtain ⟨p₀, item₀, hitem₀, hr, hlock⟩ := h
  have heffect := exec_effect fs op
  unfold Configfs.step
  generalize fs.exec op = result at heffect ⊢
  -- what changes is not the item that holds the lock
  have hother : ∀ {p : Path} {item : Item}, result.fs.items = fs.items.insert p item → p₀ ≠ p →
      Held result.fs r := by
    intro p item hitems hp
    exact ⟨p₀, item₀, by rw [hitems, AList.lookup_insert_ne hp, hitem₀], hr, hlock⟩
  have hunlocked : ∀ {p : Path} {item : Item}, fs.items.lookup p = some item →
      item.cfg.locked = false → p₀ ≠ p := by
    rintro p item hitem hfree rfl
    rw [hitem₀, Option.some_inj] at hitem
    subst hitem
    rw [hlock.1] at hfree
    cases hfree
  cases heffect with
  | quiet hitems hsent =>
    exact ⟨⟨p₀, item₀, (hitems p₀).trans hitem₀, hr, hlock⟩, by simp [hsent]⟩
  | made item habsent _ _ hitems hsent =>
    refine ⟨hother hitems ?_, by simp [hsent]⟩
    rintro rfl
    rw [hitem₀] at habsent
    cases habsent
  | @removed p _ item hitem hitems hsent =>
    have hp : p₀ ≠ p := by
      rintro rfl
      exact hkeep item₀ hitem₀ hlock
    have hstill : result.fs.items.lookup p₀ = some item₀ := by
      rw [hitems, AList.lookup_erase_ne hp, hitem₀]
    exact ⟨⟨p₀, item₀, hstill, hr, hlock⟩, by simp [hsent]⟩
  | wrote item _ hitem hfree hitems hsent =>
    exact ⟨hother hitems (hunlocked hitem hfree), by simp [hsent]⟩
  | stuck item _ hitem hfree hitems hsent =>
    exact ⟨hother hitems (hunlocked hitem hfree), by simp [hsent]⟩
  | sent item value hitem hfree hvalue hallocated hitems hsent =>
    refine ⟨hother hitems (hunlocked hitem hfree), ?_⟩
    rw [hsent]
    rintro msg ⟨⟩ hid
    have hsame : item₀.resource = item.resource := hr.trans (ResourceId.code_injective hid).symm
    exact hkeep item hitem hfree hallocated (by rw [hvalue]; rfl) ⟨p₀, item₀⟩
      (AList.mem_lookup_iff.mp hitem₀) hsame hlock

/-- **A run of operations.** -/
theorem messages : ∀ {ops : List CfgOp} {fs : Configfs}, Held fs r →
    Steps Configfs.step KeepsLock fs ops →
    ∀ msg ∈ fs.messages ops, msg.policyData.resourceId ≠ r.code
  | [], _, _, _ => fun _ hmsg => absurd hmsg List.not_mem_nil
  | op :: ops, fs, h, hok => by
    intro msg hmsg
    obtain ⟨hheld, hsent⟩ := h.step hok.1
    rcases List.mem_append.mp hmsg with hfirst | hrest
    · exact hsent msg (Option.mem_toList.mp hfirst)
    · exact messages hheld hok.2 msg hrest

end Held

/-- **A locked resource stays locked.** In a run that removes no item holding a lock and sends no
settings through another item of its resource, no message names the resource after the operation
that locked it. -/
theorem locked_stays_silent {before after : List CfgOp} {op : CfgOp} {r : ResourceId}
    (hok : Steps Configfs.step KeepsLock .empty (before ++ op :: after))
    (hlocks : LocksResource (run Configfs.step .empty before) op r) :
    ∀ msg ∈ ((run Configfs.step .empty before).step op).messages after,
      msg.policyData.resourceId ≠ r.code :=
  Held.messages (.of_locks hlocks) (steps_append.mp hok).2.2

/-! ## Runs -/

/-- The item `name` of directory `cr0`. -/
def cr0Path (name : String) : Path := ⟨"cr0".toList, name.toList⟩

/-- The user makes the directory `cr0` and in it the item `PE`, with STICKY. -/
def stickyPe : List CfgOp :=
  [.mkdirGroup "cr0".toList ⟨true, true⟩, .mkdir (cr0Path "PE") ⟨true, true⟩,
    .storeWrite (cr0Path "PE") "0x80".toList]

/-- The user enables the item. -/
def enable (path : Path) : CfgOp := .storeEnable path "1".toList ⟨true, true⟩

theorem stickyPe_locks :
    LocksResource (run Configfs.step .empty stickyPe) (enable (cr0Path "PE")) .cr0Pe :=
  ⟨_, _, _, _, _, rfl, rfl, by decide +kernel, rfl, by decide +kernel, rfl, by decide, rfl, rfl⟩

/-- No message after the lock, when the user stores to the item again and removes another one. -/
theorem locked_stays_silent_pe :
    LocksResource (run Configfs.step .empty stickyPe) (enable (cr0Path "PE")) .cr0Pe ∧
      ∀ msg ∈ ((run Configfs.step .empty stickyPe).step (enable (cr0Path "PE"))).messages
        [.mkdir (cr0Path "wp") ⟨true, true⟩, enable (cr0Path "wp"), .rmdir (cr0Path "wp"),
          .storeEnable (cr0Path "PE") "0".toList ⟨true, true⟩],
        msg.policyData.resourceId ≠ ResourceId.cr0Pe.code :=
  ⟨stickyPe_locks, locked_stays_silent (by decide +kernel) stickyPe_locks⟩

/-- **The lock can be passed by.** A second item for the resource, spelled in another way, is not
locked: its settings are sent. -/
theorem lock_bypassed :
    LocksResource (run Configfs.step .empty stickyPe) (enable (cr0Path "PE")) .cr0Pe ∧
      ∃ msg ∈ ((run Configfs.step .empty stickyPe).step (enable (cr0Path "PE"))).messages
        [.mkdir (cr0Path "pe") ⟨true, true⟩, enable (cr0Path "pe")],
        msg.policyData.resourceId = ResourceId.cr0Pe.code :=
  ⟨stickyPe_locks, _, List.mem_cons_self, by decide +kernel⟩

end IkgtUsage
