import IkgtUsage.Driver.CfgEffect
import IkgtUsage.Handler.Room

/-!
# A setting on its way to the table

A stored number takes four shapes: the value of the text, the field of the item, the field of the
message and the field of the entry. `sticky_value` has 64 bits throughout. `write` is an
`unsigned long` in the store and 32 bits wide in the message and in the entry, but the item keeps it
as a `policy_action_w`, which has 8 bits, and the store does not look at the others.

So what arrives is the low byte (`entryOf_settings`), and the setting is unaltered exactly if there
is nothing above it (`settings_unaltered_iff`).
-/

namespace IkgtUsage

open Lib

/-- An item with these settings stored. -/
def Cfg.withSettings {k : CfgKind} (cfg : Cfg k) (write stickyValue : U64) : Cfg k :=
  { cfg with write := write.truncate 8, stickyValue := stickyValue }

/-- The operations are the stores of the two pages to the item at `p`, in either order. -/
def StoresOf (p : Path) (writePage stickyPage : List Char) (stores : List CfgOp) : Prop :=
  stores = [.storeWrite p writePage, .storeStickyValue p stickyPage] ∨
    stores = [.storeStickyValue p stickyPage, .storeWrite p writePage]

section

variable {fs : Configfs} {p : Path} {item : Item} (hitem : fs.items.lookup p = some item)
  (hunlocked : item.cfg.locked = false) {writePage stickyPage enablePage : List Char}
  {w s value : U64} (hw : kstrtoul writePage 0 = some w) (hs : kstrtoul stickyPage 0 = some s)
  (hvalue : kstrtoul enablePage 0 = some value) {stores : List CfgOp}
  (hstores : StoresOf p writePage stickyPage stores)

include hitem hunlocked hw hs hstores

/-- The item after the stores. -/
theorem lookup_run_stores :
    (run Configfs.step fs stores).items.lookup p =
      some ⟨item.group, item.cfg.withSettings w s⟩ := by
  rcases hstores with rfl | rfl
  · have hfirst : (fs.step (.storeWrite p writePage)).items.lookup p =
        some ⟨item.group, { item.cfg with write := w.truncate 8 }⟩ := by
      rw [Configfs.step, exec_storeWrite hitem hunlocked hw]
      exact AList.lookup_insert _
    rw [run_cons, run_cons, run_nil, Configfs.step, exec_storeStickyValue hfirst hunlocked hs]
    exact AList.lookup_insert _
  · have hfirst : (fs.step (.storeStickyValue p stickyPage)).items.lookup p =
        some ⟨item.group, { item.cfg with stickyValue := s }⟩ := by
      rw [Configfs.step, exec_storeStickyValue hitem hunlocked hs]
      exact AList.lookup_insert _
    rw [run_cons, run_cons, run_nil, Configfs.step, exec_storeWrite hfirst hunlocked hw]
    exact AList.lookup_insert _

include hvalue

/-- The message the store to `enable` then sends. -/
theorem sent_enable (answers : Answers) (hallocated : answers.allocated = true) :
    ((run Configfs.step fs stores).exec (.storeEnable p enablePage answers)).sent =
      some (policyMessage (item.cfg.withSettings w s) item.cfg.row (value ≠ 0)) := by
  have hlookup := lookup_run_stores hitem hunlocked hw hs hstores
  rw [exec_storeEnable hlookup hunlocked hvalue hallocated]
  rfl

/-- **What arrives**: the low byte of `write`, and `sticky_value`. -/
theorem entryOf_settings (debug : Bool) (hnonzero : value ≠ 0) {handler : HandlerState}
    (hready : handler.Ready item.resource.code) {env : Surroundings}
    (hcopied : env.outcome 0 = .success ∧ env.outcome 1 = .success) (info : EventInfo) :
    ∃ msg entry,
      ((run Configfs.step fs stores).exec (.storeEnable p enablePage ⟨true, true⟩)).sent =
        some msg ∧
      (reportEvent debug handler ⟨env, info, .msg msg⟩).entryOf item.resource = some entry ∧
      entry.wAction = (w.truncate 8).zeroExtend 32 ∧ entry.stickyVal = s := by
  have henable : decide (value ≠ 0) = true := decide_eq_true hnonzero
  have hsent := sent_enable hitem hunlocked hw hs hvalue hstores ⟨true, true⟩ rfl
  rw [henable] at hsent
  have hcommand : Event.policyCommand debug
      ⟨env, info, .msg (policyMessage (item.cfg.withSettings w s) item.cfg.row true)⟩ =
        some (.enable (policyMessage (item.cfg.withSettings w s) item.cfg.row true).policyData) :=
    if_pos hcopied
  exact ⟨_, _, hsent, hready.entryOf_reportEvent hcommand rfl, rfl, rfl⟩

end

/-- A byte, widened, is the number it was taken from if there was nothing above. -/
theorem toNat_low_byte_iff (w : U64) :
    ((w.truncate 8).zeroExtend 32 : U32).toNat = w.toNat ↔ w.toNat < 256 := by
  simp only [BitVec.truncate, BitVec.zeroExtend, BitVec.toNat_setWidth]
  omega

/-- **When a setting arrives unaltered.** The numbers `w` and `s` are stored to `write` and
`sticky_value` of an item that is not locked, in either order, and then a nonzero number to
`enable`. The message goes out and reaches a handler that is not immutable and has room for the
resource. The entry of the resource then has `w_action` equal to `w` and `sticky_val` equal to `s`
if and only if `w` fits a byte. -/
theorem settings_unaltered_iff (debug : Bool) {fs : Configfs} {p : Path} {item : Item}
    (hitem : fs.items.lookup p = some item) (hunlocked : item.cfg.locked = false)
    {writePage stickyPage enablePage : List Char} {w s value : U64}
    (hw : kstrtoul writePage 0 = some w) (hs : kstrtoul stickyPage 0 = some s)
    (hvalue : kstrtoul enablePage 0 = some value) (hnonzero : value ≠ 0) {stores : List CfgOp}
    (hstores : StoresOf p writePage stickyPage stores) {handler : HandlerState}
    (hready : handler.Ready item.resource.code) {env : Surroundings}
    (hcopied : env.outcome 0 = .success ∧ env.outcome 1 = .success) (info : EventInfo) :
    ∃ msg,
      ((run Configfs.step fs stores).exec (.storeEnable p enablePage ⟨true, true⟩)).sent =
        some msg ∧
      ((∃ entry,
          (reportEvent debug handler ⟨env, info, .msg msg⟩).entryOf item.resource = some entry ∧
          entry.wAction.toNat = w.toNat ∧ entry.stickyVal = s) ↔ w.toNat < 256) := by
  obtain ⟨msg, entry, hsent, hentry, hwrite, hsticky⟩ :=
    entryOf_settings hitem hunlocked hw hs hvalue hstores debug hnonzero hready hcopied info
  refine ⟨msg, hsent, ?_⟩
  rw [← toNat_low_byte_iff, ← hwrite]
  constructor
  · rintro ⟨entry', hentry', hwrite', -⟩
    rw [hentry, Option.some_inj] at hentry'
    exact hentry' ▸ hwrite'
  · exact fun hsame => ⟨entry, hentry, hsame, hsticky⟩

/-- Where the item `WP` of CR0 is made. -/
def wpPath : Path := ⟨"cr0".toList, "WP".toList⟩

/-- The tree that has just this item. -/
def wpTree : Configfs :=
  run Configfs.step .empty [.mkdirGroup "cr0".toList ⟨true, true⟩, .mkdir wpPath ⟨true, true⟩]

/-- SKIP and STICKY are stored to `write` of the item `WP`. -/
theorem settings_unaltered_iff_wp :
    ∃ msg,
      ((run Configfs.step wpTree [.storeWrite wpPath "0x82".toList,
        .storeStickyValue wpPath "1".toList]).exec
          (.storeEnable wpPath "1".toList ⟨true, true⟩)).sent = some msg ∧
      ((∃ entry, (reportEvent false (handlerInitialize (.boot .atBoot))
          ⟨.cooperative, ⟨0, 0, 0⟩, .msg msg⟩).entryOf .cr0Wp = some entry ∧
          entry.wAction.toNat = (0x82 : U64).toNat ∧ entry.stickyVal = 1) ↔
        (0x82 : U64).toNat < 256) := by
  have hitem : wpTree.items.lookup wpPath =
      some ⟨.cr0, ⟨⟨"WP".toList, by decide⟩, false, false, 0, 0⟩⟩ := rfl
  have hready : (handlerInitialize (.boot .atBoot)).Ready ResourceId.cr0Wp.code :=
    ⟨rfl, rfl, by unfold HasRoom; decide +kernel⟩
  have hw : kstrtoul "0x82".toList 0 = some 0x82 := by decide
  have hone : kstrtoul "1".toList 0 = some 1 := by decide
  exact settings_unaltered_iff false hitem rfl hw hone hone (by decide) (Or.inl rfl) hready
    ⟨rfl, rfl⟩ ⟨0, 0, 0⟩

/-- **A store of 258 is a store of 2.** The number 258 is stored to `write` of the item `WP`, with
success, and sent: the entry has 2, which is SKIP. -/
theorem stored_write_cut :
    let stores : List CfgOp :=
      [.storeWrite wpPath "258".toList, .storeStickyValue wpPath "0".toList]
    let r := (run Configfs.step wpTree stores).exec (.storeEnable wpPath "1".toList ⟨true, true⟩)
    kstrtoul "258".toList 0 = some 258 ∧
      (wpTree.exec (.storeWrite wpPath "258".toList)).ret.toOption = some 3 ∧
      (r.sent.bind fun msg =>
        ((reportEvent false (handlerInitialize (.boot .atBoot)) msg.event).entryOf .cr0Wp).map
          PolicyEntry.wAction) = some policyActSkip := by
  decide +kernel

end IkgtUsage
