import IkgtUsage.Driver.CfgEffect
import IkgtUsage.Driver.Log
import IkgtUsage.Lib.Numeral
import IkgtUsage.Lib.Run
import Mathlib.Data.List.Forall2

/-!
# Reading the attributes of an item (`driver/common.h`)

`IKGT_UINT32_SHOW`, `IKGT_UINT32_HEX_SHOW` and `IKGT_ULONG_HEX_SHOW` print the three settings of an
item; the stores read them with `kstrtoul`, which goes by the text for the base. What one item shows
can be stored in another item, or back: `restore_shown` says that storing the three texts of `from`
in an item that is not locked gives that item, and the handler, the settings of `from`.
-/

namespace IkgtUsage

open Lib

/-! ## The show functions -/

section Show

variable {k : CfgKind}

/-- `IKGT_UINT32_SHOW(crx_cfg, enable)`: `"%u\n"`. -/
def cfgShowEnable (cfg : Cfg k) : List Char := formatDec cfg.enable.toNat ++ ['\n']

/-- `IKGT_UINT32_HEX_SHOW(crx_cfg, write)`: `"0x%X\n"`. -/
def cfgShowWrite (cfg : Cfg k) : List Char := '0' :: 'x' :: formatHex cfg.write.toNat ++ ['\n']

/-- `IKGT_ULONG_HEX_SHOW(crx_cfg, sticky_value)`: `"0x%lX\n"`. -/
def cfgShowStickyValue (cfg : Cfg k) : List Char :=
  '0' :: 'x' :: formatHex cfg.stickyValue.toNat ++ ['\n']

end Show

/-- `cr0_cfg_show_enable`. -/
def cr0CfgShowEnable : Cfg cr0Kind → List Char := cfgShowEnable

/-- `cr0_cfg_show_write`. -/
def cr0CfgShowWrite : Cfg cr0Kind → List Char := cfgShowWrite

/-- `cr0_cfg_show_sticky_value`. -/
def cr0CfgShowStickyValue : Cfg cr0Kind → List Char := cfgShowStickyValue

/-- `cr4_cfg_show_enable`. -/
def cr4CfgShowEnable : Cfg cr4Kind → List Char := cfgShowEnable

/-- `cr4_cfg_show_write`. -/
def cr4CfgShowWrite : Cfg cr4Kind → List Char := cfgShowWrite

/-- `cr4_cfg_show_sticky_value`. -/
def cr4CfgShowStickyValue : Cfg cr4Kind → List Char := cfgShowStickyValue

/-- `msr_cfg_show_enable`. -/
def msrCfgShowEnable : Cfg msrKind → List Char := cfgShowEnable

/-- `msr_cfg_show_write`. -/
def msrCfgShowWrite : Cfg msrKind → List Char := cfgShowWrite

/-- `msr_cfg_show_sticky_value`. -/
def msrCfgShowStickyValue : Cfg msrKind → List Char := cfgShowStickyValue

/-- What `cat` of the `enable` of an item of the group prints. -/
def CfgGroup.showEnable : (g : CfgGroup) → Cfg g.kind → List Char
  | cr0 => cr0CfgShowEnable
  | cr4 => cr4CfgShowEnable
  | msr => msrCfgShowEnable

/-- What `cat` of the `write` of an item of the group prints. -/
def CfgGroup.showWrite : (g : CfgGroup) → Cfg g.kind → List Char
  | cr0 => cr0CfgShowWrite
  | cr4 => cr4CfgShowWrite
  | msr => msrCfgShowWrite

/-- What `cat` of the `sticky_value` of an item of the group prints. -/
def CfgGroup.showStickyValue : (g : CfgGroup) → Cfg g.kind → List Char
  | cr0 => cr0CfgShowStickyValue
  | cr4 => cr4CfgShowStickyValue
  | msr => msrCfgShowStickyValue

theorem CfgGroup.showEnable_eq (g : CfgGroup) : g.showEnable = cfgShowEnable := by
  cases g <;> rfl

theorem CfgGroup.showWrite_eq (g : CfgGroup) : g.showWrite = cfgShowWrite := by cases g <;> rfl

theorem CfgGroup.showStickyValue_eq (g : CfgGroup) : g.showStickyValue = cfgShowStickyValue := by
  cases g <;> rfl

/-! ## `kstrtoul` reads what is shown -/

theorem readsDigits_dec : ReadsDigits id digitValue 10 := by
  unfold ReadsDigits
  decide

theorem readsDigits_hex : ReadsDigits Char.toUpper digitValue 16 := by
  unfold ReadsDigits
  decide

theorem formatDec_eq (n : Nat) : formatDec n = numeral id 10 n := (List.map_id _).symm

theorem formatHex_eq (n : Nat) : formatHex n = numeral Char.toUpper 16 n := rfl

/-- `_parse_integer` reads the digits it can and stops. -/
theorem parseInteger_append {base : Nat} {s : List Char} (rest : List Char) :
    ∀ {v w : Nat}, readNumeral digitValue base s v = some w →
      parseInteger base (s ++ rest) v =
        ((parseInteger base rest w).1, (parseInteger base rest w).2.1 + s.length,
          (parseInteger base rest w).2.2) := by
  induction s with
  | nil =>
    intro v w h
    cases h
    rfl
  | cons c s ih =>
    intro v w h
    simp only [readNumeral] at h
    simp only [List.cons_append, parseInteger]
    cases hvalue : digitValue c with
    | none =>
      rw [hvalue] at h
      cases h
    | some d =>
      rw [hvalue] at h
      by_cases hd : d < base
      · simp only [if_pos hd] at h ⊢
        rw [ih h, List.length_cons, Nat.add_assoc]
      · simp only [if_neg hd] at h
        cases h

/-- A number followed by a newline. -/
theorem parseInteger_line {base : Nat} {s : List Char} {n : Nat}
    (h : readNumeral digitValue base s 0 = some n) :
    parseInteger base (s ++ ['\n']) 0 = (n, s.length, ['\n']) := by
  have hstop : parseInteger base ['\n'] n = (n, 0, ['\n']) := rfl
  rw [parseInteger_append _ h, hstop, Nat.zero_add]

/-- `kstrtoul` of a line whose number starts after the mark of the base. -/
theorem kstrtoul_line {c : Char} (hc : c ≠ '+') {s t : List Char} {base : Nat} {v : U64}
    (hbase : parseIntegerFixupRadix (c :: s) 0 = (base, t ++ ['\n']))
    (hdigits : t ≠ []) (h : readNumeral digitValue base t 0 = some v.toNat) :
    kstrtoul (c :: s) 0 = some v := by
  simp [kstrtoul, hc, hbase, parseInteger_line h, hdigits]
  exact v.isLt

/-- A line of base 16. -/
theorem kstrtoul_formatHex (v : U64) :
    kstrtoul ('0' :: 'x' :: formatHex v.toNat ++ ['\n']) 0 = some v := by
  obtain ⟨d, hd, -, s, hs⟩ :=
    numeral_eq_cons (f := Char.toUpper) (show 1 < 16 by decide) v.toNat
  have hdigit : (digitValue d.digitChar.toUpper).isSome = true := by
    rw [readsDigits_hex d hd]
    rfl
  have hbase : parseIntegerFixupRadix ('0' :: 'x' :: formatHex v.toNat ++ ['\n']) 0 =
      (16, formatHex v.toNat ++ ['\n']) := by
    have hlower : 'x'.toLower = 'x' := by decide
    rw [formatHex_eq, hs]
    simp [parseIntegerFixupRadix, hdigit, hlower]
  refine kstrtoul_line (by decide) hbase (numeral_ne_nil _) ?_
  exact readNumeral_numeral (by decide) readsDigits_hex v.toNat

section Shown

variable {k : CfgKind} (cfg : Cfg k)

theorem kstrtoul_showEnable :
    kstrtoul (cfgShowEnable cfg) 0 = some (if cfg.enable then 1 else 0) := by
  unfold cfgShowEnable
  cases cfg.enable <;> decide

theorem kstrtoul_showWrite :
    kstrtoul (cfgShowWrite cfg) 0 = some (cfg.write.zeroExtend 64) := by
  have h := kstrtoul_formatHex (cfg.write.zeroExtend 64)
  rwa [BitVec.toNat_setWidth, Nat.mod_eq_of_lt (by have := cfg.write.isLt; omega)] at h

theorem kstrtoul_showStickyValue :
    kstrtoul (cfgShowStickyValue cfg) 0 = some cfg.stickyValue :=
  kstrtoul_formatHex cfg.stickyValue

end Shown

/-! ## Storing what is shown -/

/-- The operations that store what `source` shows in the item at `p`. -/
def restoreOps (source : Item) (p : Path) : List CfgOp :=
  [.storeWrite p (source.group.showWrite source.cfg),
    .storeStickyValue p (source.group.showStickyValue source.cfg),
    .storeEnable p (source.group.showEnable source.cfg) ⟨true, true⟩]

/-- The item after the settings of `source` were stored in it. -/
def Cfg.restored {k : CfgKind} (cfg source : Cfg k) : Cfg k where
  item := cfg.item
  enable := source.enable
  locked := source.writeSticky
  write := source.write
  stickyValue := source.stickyValue

/-- Storing the texts that `source` shows in an item of its group that is not locked. -/
theorem restore_shown {fs : Configfs} {p : Path} {g : CfgGroup} {cfg : Cfg g.kind}
    (hitem : fs.items.lookup p = some ⟨g, cfg⟩) (hunlocked : cfg.locked = false)
    (source : Cfg g.kind) :
    let fs' := run Configfs.step fs (restoreOps ⟨g, source⟩ p)
    fs'.items.lookup p = some ⟨g, cfg.restored source⟩ ∧
      (∀ p', p' ≠ p → fs'.items.lookup p' = fs.items.lookup p') ∧
      fs.messages (restoreOps ⟨g, source⟩ p) =
        [policyMessage (cfg.restored source) cfg.row source.enable] := by
  have hwrite : kstrtoul (g.showWrite source) 0 = some (source.write.zeroExtend 64) := by
    rw [g.showWrite_eq]
    exact kstrtoul_showWrite source
  have hsticky : kstrtoul (g.showStickyValue source) 0 = some source.stickyValue := by
    rw [g.showStickyValue_eq]
    exact kstrtoul_showStickyValue source
  have henable : kstrtoul (g.showEnable source) 0 = some (if source.enable then 1 else 0) := by
    rw [g.showEnable_eq]
    exact kstrtoul_showEnable source
  have hback : (source.write.zeroExtend 64).truncate 8 = source.write :=
    BitVec.setWidth_setWidth_of_le _ (by decide)
  -- the tree after each of the stores
  obtain ⟨fs1, hfs1⟩ : ∃ fs1 : Configfs, fs1 =
      { fs with items := fs.items.insert p ⟨g, { cfg with write := source.write }⟩ } := ⟨_, rfl⟩
  obtain ⟨fs2, hfs2⟩ : ∃ fs2 : Configfs, fs2 =
      { fs1 with items := fs1.items.insert p ⟨g, { cfg with
        write := source.write, stickyValue := source.stickyValue }⟩ } := ⟨_, rfl⟩
  have hitem1 : fs1.items.lookup p = some ⟨g, { cfg with write := source.write }⟩ := by
    rw [hfs1]
    exact AList.lookup_insert _
  have hitem2 : fs2.items.lookup p = some ⟨g, { cfg with
      write := source.write, stickyValue := source.stickyValue }⟩ := by
    rw [hfs2]
    exact AList.lookup_insert _
  have h1 := exec_storeWrite hitem hunlocked hwrite
  rw [hback, ← hfs1] at h1
  have h2 := exec_storeStickyValue hitem1 hunlocked hsticky
  rw [← hfs2] at h2
  have h3 := @exec_storeEnable _ _ _ _ ⟨true, true⟩ _ hitem2 hunlocked henable rfl
  have hlock : ({ cfg with write := source.write, stickyValue := source.stickyValue } :
      Cfg g.kind).enabled (if source.enable then 1 else 0) = cfg.restored source := by
    simp only [Cfg.enabled, Cfg.restored, Cfg.writeSticky, hunlocked, Bool.false_or]
    cases source.enable <;> rfl
  rw [if_pos rfl, hlock] at h3
  simp only [restoreOps, run_cons, run_nil, Configfs.step, Configfs.messages, h1, h2, h3]
  refine ⟨AList.lookup_insert _, fun p' hp => ?_, ?_⟩
  · rw [AList.lookup_insert_ne hp, hfs2]
    simp only
    rw [AList.lookup_insert_ne hp, hfs1]
    simp only
    rw [AList.lookup_insert_ne hp]
  · simp
    rfl

/-! ## A backup of several items -/

/-- The messages of a run of operations, in two parts. -/
theorem Configfs.messages_append :
    ∀ (ops ops' : List CfgOp) (fs : Configfs),
      fs.messages (ops ++ ops') = fs.messages ops ++ (run Configfs.step fs ops).messages ops'
  | [], _, _ => rfl
  | op :: ops, ops', fs => by
    simp only [List.cons_append, Configfs.messages, run_cons, List.append_assoc]
    rw [messages_append ops ops']

/-- The operations that store what each source shows in the item at its path. -/
def restoreAllOps (backup : List (Path × Item)) : List CfgOp :=
  backup.flatMap fun b => restoreOps b.2 b.1

/-- The backup is for an item of the group that is not locked. -/
def Fits (fs : Configfs) (b : Path × Item) : Prop :=
  ∃ cfg : Cfg b.2.group.kind, fs.items.lookup b.1 = some ⟨b.2.group, cfg⟩ ∧ cfg.locked = false

/-- The item of the backup has taken its settings. -/
def Restored (fs fs' : Configfs) (b : Path × Item) : Prop :=
  ∀ cfg : Cfg b.2.group.kind, fs.items.lookup b.1 = some ⟨b.2.group, cfg⟩ →
    fs'.items.lookup b.1 = some ⟨b.2.group, cfg.restored b.2.cfg⟩

/-- The message carries the settings of the backup, for the item it is stored in. -/
def Announces (fs : Configfs) (b : Path × Item) (msg : PolicyMessage) : Prop :=
  ∃ cfg : Cfg b.2.group.kind, fs.items.lookup b.1 = some ⟨b.2.group, cfg⟩ ∧
    msg = policyMessage (cfg.restored b.2.cfg) cfg.row b.2.cfg.enable

/-- **What is shown can be stored.** Take the texts shown by any items and store them, in any order
of the items, in items of the same groups that are not locked, `write` and `sticky_value` before
`enable`, every message delivered. Then each of these has the settings of its source, every other
item is as before, and the handler was sent exactly one message for each, with these settings. -/
theorem restore_all {fs : Configfs} {backup : List (Path × Item)}
    (hpaths : (backup.map Prod.fst).Nodup) (hfits : ∀ b ∈ backup, Fits fs b) :
    let fs' := run Configfs.step fs (restoreAllOps backup)
    (∀ b ∈ backup, Restored fs fs' b) ∧
      (∀ p, p ∉ backup.map Prod.fst → fs'.items.lookup p = fs.items.lookup p) ∧
      List.Forall₂ (Announces fs) backup (fs.messages (restoreAllOps backup)) := by
  induction backup generalizing fs with
  | nil => exact ⟨fun b hb => absurd hb List.not_mem_nil, fun _ _ => rfl, .nil⟩
  | cons b backup ih =>
    obtain ⟨p, g, source⟩ := b
    rw [List.map_cons, List.nodup_cons] at hpaths
    obtain ⟨cfg, hitem, hunlocked⟩ := hfits _ List.mem_cons_self
    obtain ⟨hself, hother, hsent⟩ := restore_shown hitem hunlocked source
    -- the items of the other backups are still what they were
    have hrest : ∀ b ∈ backup,
        (run Configfs.step fs (restoreOps ⟨g, source⟩ p)).items.lookup b.1 =
          fs.items.lookup b.1 := fun b hb =>
      hother b.1 fun heq => hpaths.1 (heq ▸ List.mem_map_of_mem hb)
    obtain ⟨hin, hout, hsent'⟩ := ih hpaths.2 fun b hb => by
      unfold Fits
      rw [hrest b hb]
      exact hfits b (List.mem_cons_of_mem _ hb)
    simp only [restoreAllOps, List.flatMap_cons, run_append, Configfs.messages_append]
    refine ⟨fun b hb => ?_, fun p' hp' => ?_, ?_⟩
    · rcases List.mem_cons.mp hb with rfl | hb
      · intro cfg' hitem'
        rw [hitem, Option.some_inj] at hitem'
        cases hitem'
        exact (hout p hpaths.1).trans hself
      · intro cfg' hitem'
        exact hin b hb cfg' (by rw [hrest b hb]; exact hitem')
    · rw [List.map_cons, List.mem_cons, not_or] at hp'
      exact (hout p' hp'.2).trans (hother p' hp'.1)
    · rw [hsent]
      refine .cons ⟨cfg, hitem, rfl⟩ ?_
      refine ((List.forall₂_and_left _ _).mpr ⟨fun b hb => hrest b hb, hsent'⟩).imp ?_
      rintro b msg ⟨hsame, cfg', hitem', hmsg⟩
      exact ⟨cfg', hsame ▸ hitem', hmsg⟩

/-- A locked item with STICKY is stored in a new item of its bit under another name, and one of EFER
in an item that has other settings. The item of PAE is not stored to. -/
theorem restore_all_two :
    let wp : Cfg cr0Kind := ⟨⟨"WP".toList, by decide⟩, true, true, 0x82, 1⟩
    let efer : Cfg msrKind := ⟨⟨"EFER".toList, by decide⟩, true, false, 3, 0x500⟩
    let newWp : Cfg cr0Kind := ⟨⟨"wp".toList, by decide⟩, false, false, 0, 0⟩
    let otherEfer : Cfg msrKind := ⟨⟨"efer".toList, by decide⟩, true, false, 1, 0x100⟩
    let pae : Cfg cr4Kind := ⟨⟨"pae".toList, by decide⟩, true, false, 2, 0⟩
    let wpPath : Path := ⟨"cr0".toList, "wp".toList⟩
    let eferPath : Path := ⟨"msr".toList, "efer".toList⟩
    let paePath : Path := ⟨"cr4".toList, "pae".toList⟩
    let items : AList fun _ : Path => Item := ((∅ : AList fun _ : Path => Item).insert paePath
      ⟨.cr4, pae⟩).insert eferPath ⟨.msr, otherEfer⟩
    let fs : Configfs := ⟨∅, items.insert wpPath ⟨.cr0, newWp⟩⟩
    let backup : List (Path × Item) := [(eferPath, ⟨.msr, efer⟩), (wpPath, ⟨.cr0, wp⟩)]
    let fs' := run Configfs.step fs (restoreAllOps backup)
    (∀ b ∈ backup, Restored fs fs' b) ∧
      (∀ p, p ∉ backup.map Prod.fst → fs'.items.lookup p = fs.items.lookup p) ∧
      List.Forall₂ (Announces fs) backup (fs.messages (restoreAllOps backup)) := by
  intro wp efer newWp otherEfer pae wpPath eferPath paePath items fs backup
  have hne : eferPath ≠ wpPath := by decide
  refine restore_all (show [eferPath, wpPath].Nodup by decide) fun b hb => ?_
  rcases List.mem_cons.mp hb with rfl | hb
  · exact ⟨otherEfer, (AList.lookup_insert_ne hne).trans (AList.lookup_insert _), rfl⟩
  · rw [List.mem_singleton.mp hb]
    exact ⟨newWp, AList.lookup_insert _, rfl⟩

end IkgtUsage
