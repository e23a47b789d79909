import IkgtUsage.Driver.Configfs

/-!
# What an operation on the tree does

`exec_effect` is the inversion lemma of `Configfs.exec`: an operation creates an item, removes one,
changes the `write` or `sticky_value` of an item that is not locked, sends the settings of an item
that is not locked, or leaves all items as they are. Everything about runs of operations is a case
analysis over `OpEffect`.
-/

namespace IkgtUsage

/-! ## Stores -/

/-- An item after its settings were sent with success. -/
def Cfg.enabled {k : CfgKind} (cfg : Cfg k) (value : U64) : Cfg k :=
  { cfg with enable := value ≠ 0, locked := cfg.locked || cfg.writeSticky }

/-- A store to `write` or `sticky_value`, which sets the item by `set`, fails or changes an item
that is not locked. -/
theorem cfgStore_cases {k : CfgKind} (cfg : Cfg k) (page : List Char) (set : U64 → Cfg k)
    {store : StoreResult k}
    (hstore : store = if cfg.locked then ⟨cfg, none, .error .eperm⟩
      else match kstrtoul page 0 with
        | none => ⟨cfg, none, .error .einval⟩
        | some value => ⟨set value, none, .ok page.length⟩) :
    (∃ e, store = ⟨cfg, none, .error e⟩) ∨
      ∃ value, cfg.locked = false ∧ kstrtoul page 0 = some value ∧
        store = ⟨set value, none, .ok page.length⟩ := by
  by_cases hlocked : cfg.locked = true
  · exact Or.inl ⟨.eperm, hstore.trans (if_pos hlocked)⟩
  rw [if_neg hlocked] at hstore
  cases hvalue : kstrtoul page 0 with
  | none =>
    rw [hvalue] at hstore
    exact Or.inl ⟨.einval, hstore⟩
  | some value =>
    rw [hvalue] at hstore
    exact Or.inr ⟨value, by simpa using hlocked, rfl, hstore⟩

theorem cfgStoreWrite_cases {k : CfgKind} (cfg : Cfg k) (page : List Char) :
    (∃ e, cfgStoreWrite cfg page = ⟨cfg, none, .error e⟩) ∨
      ∃ value, cfg.locked = false ∧ kstrtoul page 0 = some value ∧
        cfgStoreWrite cfg page =
          ⟨{ cfg with write := value.truncate 8 }, none, .ok page.length⟩ :=
  cfgStore_cases cfg page (fun value => { cfg with write := value.truncate 8 }) rfl

theorem cfgStoreStickyValue_cases {k : CfgKind} (cfg : Cfg k) (page : List Char) :
    (∃ e, cfgStoreStickyValue cfg page = ⟨cfg, none, .error e⟩) ∨
      ∃ value, cfg.locked = false ∧ kstrtoul page 0 = some value ∧
        cfgStoreStickyValue cfg page =
          ⟨{ cfg with stickyValue := value }, none, .ok page.length⟩ :=
  cfgStore_cases cfg page (fun value => { cfg with stickyValue := value }) rfl

/-- `policy_set_crx` finds the row of the item. -/
theorem policySet_eq {k : CfgKind} (answers : Answers) (cfg : Cfg k) (enable : Bool) :
    policySet answers cfg enable =
      if answers.allocated then (some (policyMessage cfg cfg.row enable), answers.delivered)
      else (none, false) := by
  unfold policySet
  rw [cfg.validAttr_ciName]
  cases answers.allocated <;> rfl

/-- A store to `enable` that sends the settings. -/
theorem cfgStoreEnable_sent {k : CfgKind} {answers : Answers} {cfg : Cfg k} {page : List Char}
    {value : U64} (hvalue : kstrtoul page 0 = some value) (hunlocked : cfg.locked = false)
    (hallocated : answers.allocated = true) :
    cfgStoreEnable answers cfg page =
      ⟨if answers.delivered then cfg.enabled value else cfg,
        some (policyMessage cfg cfg.row (value ≠ 0)), .ok page.length⟩ := by
  unfold cfgStoreEnable
  simp only [hvalue, hunlocked, Bool.false_eq_true, if_false, policySet_eq, hallocated, if_true]
  cases answers.delivered with
  | false => rfl
  | true =>
    simp only [if_true, Bool.true_and, Cfg.enabled, Cfg.writeSticky, hunlocked, Bool.false_or]
    cases decide (cfg.write.zeroExtend 32 &&& policyActSticky ≠ 0) with
    | false => rfl
    | true => rfl

/-- A store to `enable` sends nothing, or sends the settings of an item that is not locked. -/
theorem cfgStoreEnable_cases {k : CfgKind} (answers : Answers) (cfg : Cfg k) (page : List Char) :
    (∃ ret, cfgStoreEnable answers cfg page = ⟨cfg, none, ret⟩ ∧
      (answers.allocated = true → ∃ e, ret = .error e)) ∨
    ∃ value, cfg.locked = false ∧ kstrtoul page 0 = some value ∧ answers.allocated = true := by
  cases hvalue : kstrtoul page 0 with
  | none =>
    refine Or.inl ⟨.error .einval, ?_, fun _ => ⟨.einval, rfl⟩⟩
    unfold cfgStoreEnable
    rw [hvalue]
  | some value =>
    by_cases hlocked : cfg.locked = true
    · refine Or.inl ⟨.error .eperm, ?_, fun _ => ⟨.eperm, rfl⟩⟩
      unfold cfgStoreEnable
      simp only [hvalue, if_pos hlocked]
    by_cases hallocated : answers.allocated = true
    · exact Or.inr ⟨value, by simpa using hlocked, rfl, hallocated⟩
    · refine Or.inl ⟨.ok page.length, ?_, fun h => absurd h hallocated⟩
      unfold cfgStoreEnable
      simp [hvalue, if_neg hlocked, policySet_eq, hallocated]

/-! ## Operations -/

/-- A store to `write` of an item that is not locked. -/
theorem exec_storeWrite {fs : Configfs} {p : Path} {item : Item} {page : List Char} {value : U64}
    (hitem : fs.items.lookup p = some item) (hunlocked : item.cfg.locked = false)
    (hvalue : kstrtoul page 0 = some value) :
    fs.exec (.storeWrite p page) =
      ⟨{ fs with
          items := fs.items.insert p ⟨item.group, { item.cfg with write := value.truncate 8 }⟩ },
        none, .ok page.length⟩ := by
  simp [Configfs.exec, Configfs.store, hitem, item.group.storeWrite_eq, cfgStoreWrite, hunlocked,
    hvalue]

/-- A store to `sticky_value` of an item that is not locked. -/
theorem exec_storeStickyValue {fs : Configfs} {p : Path} {item : Item} {page : List Char}
    {value : U64} (hitem : fs.items.lookup p = some item) (hunlocked : item.cfg.locked = false)
    (hvalue : kstrtoul page 0 = some value) :
    fs.exec (.storeStickyValue p page) =
      ⟨{ fs with
          items := fs.items.insert p ⟨item.group, { item.cfg with stickyValue := value }⟩ },
        none, .ok page.length⟩ := by
  simp [Configfs.exec, Configfs.store, hitem, item.group.storeStickyValue_eq, cfgStoreStickyValue,
    hunlocked, hvalue]

/-- A store to `enable` of an item that is not locked. -/
theorem exec_storeEnable {fs : Configfs} {p : Path} {item : Item} {page : List Char}
    {answers : Answers} {value : U64} (hitem : fs.items.lookup p = some item)
    (hunlocked : item.cfg.locked = false) (hvalue : kstrtoul page 0 = some value)
    (hallocated : answers.allocated = true) :
    fs.exec (.storeEnable p page answers) =
      ⟨{ fs with
          items := fs.items.insert p
            ⟨item.group, if answers.delivered then item.cfg.enabled value else item.cfg⟩ },
        some (policyMessage item.cfg item.cfg.row (value ≠ 0)), .ok page.length⟩ := by
  simp only [Configfs.exec, Configfs.store, hitem, item.group.storeEnable_eq,
    cfgStoreEnable_sent hvalue hunlocked hallocated]

/-- What an operation did, by kind. -/
inductive OpEffect (fs : Configfs) : CfgOp → OpResult → Prop
  /-- No item changed. -/
  | quiet {op : CfgOp} {r : OpResult}
      (hitems : ∀ p, r.fs.items.lookup p = fs.items.lookup p) (hsent : r.sent = none)
      (hret : ∀ p page answers, op = .storeEnable p page answers → answers.allocated = true →
        ∃ e, r.ret = .error e) : OpEffect fs op r
  /-- An item was created. -/
  | made {p : Path} {answers : Answers} {r : OpResult} (item : Item)
      (habsent : fs.items.lookup p = none) (henable : item.cfg.enable = false)
      (hlocked : item.cfg.locked = false)
      (hitems : r.fs.items = fs.items.insert p item) (hsent : r.sent = none) :
      OpEffect fs (.mkdir p answers) r
  /-- An item was removed. -/
  | removed {p : Path} {r : OpResult} (item : Item) (hitem : fs.items.lookup p = some item)
      (hitems : r.fs.items = fs.items.erase p) (hsent : r.sent = none) :
      OpEffect fs (.rmdir p) r
  /-- `write` was stored. -/
  | wrote {p : Path} {page : List Char} {r : OpResult} (item : Item) (value : U64)
      (hitem : fs.items.lookup p = some item) (hunlocked : item.cfg.locked = false)
      (hitems : r.fs.items =
        fs.items.insert p ⟨item.group, { item.cfg with write := value.truncate 8 }⟩)
      (hsent : r.sent = none) (hret : r.ret = .ok page.length) :
      OpEffect fs (.storeWrite p page) r
  /-- `sticky_value` was stored. -/
  | stuck {p : Path} {page : List Char} {r : OpResult} (item : Item) (value : U64)
      (hitem : fs.items.lookup p = some item) (hunlocked : item.cfg.locked = false)
      (hitems : r.fs.items =
        fs.items.insert p ⟨item.group, { item.cfg with stickyValue := value }⟩)
      (hsent : r.sent = none) (hret : r.ret = .ok page.length) :
      OpEffect fs (.storeStickyValue p page) r
  /-- The settings were sent. -/
  | sent {p : Path} {page : List Char} {answers : Answers} {r : OpResult} (item : Item)
      (value : U64) (hitem : fs.items.lookup p = some item) (hunlocked : item.cfg.locked = false)
      (hvalue : kstrtoul page 0 = some value) (hallocated : answers.allocated = true)
      (hitems : r.fs.items = fs.items.insert p
        ⟨item.group, if answers.delivered then item.cfg.enabled value else item.cfg⟩)
      (hsent : r.sent = some (policyMessage item.cfg item.cfg.row (value ≠ 0)))
      (hret : r.ret = .ok page.length) :
      OpEffect fs (.storeEnable p page answers) r

/-- Putting an item back where it is. -/
theorem lookup_insert_same {items : AList fun _ : Path => Item} {p : Path} {item : Item}
    (h : items.lookup p = some item) (p' : Path) :
    (items.insert p item).lookup p' = items.lookup p' := by
  by_cases hp : p' = p
  · rw [hp, AList.lookup_insert, h]
  · rw [AList.lookup_insert_ne hp]

namespace OpEffect

variable {fs : Configfs} {op : CfgOp}

/-- An operation that fails. -/
theorem fail (e : Errno) : OpEffect fs op (fs.fail e) :=
  .quiet (fun _ => rfl) rfl fun _ _ _ _ _ => ⟨e, rfl⟩

/-- An operation on the directories. -/
theorem groups (groups : AList fun _ : List Char => GroupType)
    (hop : ∀ p page answers, op ≠ .storeEnable p page answers) :
    OpEffect fs op ⟨{ fs with groups := groups }, none, .ok 0⟩ :=
  .quiet (fun _ => rfl) rfl fun p page answers h => absurd h (hop p page answers)

/-- Creating an item in a directory that holds some. -/
theorem makeItem (g : CfgGroup) (p : Path) (answers : Answers)
    (habsent : fs.items.lookup p = none) :
    OpEffect fs (.mkdir p answers)
      (match g.makeItem answers.allocated p.name with
        | .error e => fs.fail e
        | .ok cfg => ⟨{ fs with items := fs.items.insert p ⟨g, cfg⟩ }, none, .ok 0⟩) := by
  rw [g.makeItem_eq]
  unfold IkgtUsage.makeItem
  by_cases hvalid : (g.kind.validAttr p.name).isSome = true
  · rw [dif_pos hvalid]
    cases answers.allocated with
    | false => exact fail _
    | true => exact .made ⟨g, ⟨⟨p.name, hvalid⟩, false, false, 0, 0⟩⟩ habsent rfl rfl rfl rfl
  · rw [dif_neg hvalid]
    exact fail _

/-- A store to `write`. -/
theorem storeWrite (p : Path) (page : List Char) :
    OpEffect fs (.storeWrite p page) (fs.exec (.storeWrite p page)) := by
  simp only [Configfs.exec, Configfs.store]
  cases hitem : fs.items.lookup p with
  | none => exact fail _
  | some item =>
    simp only [item.group.storeWrite_eq]
    rcases cfgStoreWrite_cases item.cfg page with ⟨e, heq⟩ | ⟨value, hunlocked, -, heq⟩
    · rw [heq]
      exact .quiet (lookup_insert_same hitem) rfl fun _ _ _ _ _ => ⟨e, rfl⟩
    · rw [heq]
      exact .wrote item value hitem hunlocked rfl rfl rfl

/-- A store to `sticky_value`. -/
theorem storeStickyValue (p : Path) (page : List Char) :
    OpEffect fs (.storeStickyValue p page) (fs.exec (.storeStickyValue p page)) := by
  simp only [Configfs.exec, Configfs.store]
  cases hitem : fs.items.lookup p with
  | none => exact fail _
  | some item =>
    simp only [item.group.storeStickyValue_eq]
    rcases cfgStoreStickyValue_cases item.cfg page with ⟨e, heq⟩ | ⟨value, hunlocked, -, heq⟩
    · rw [heq]
      exact .quiet (lookup_insert_same hitem) rfl fun _ _ _ _ _ => ⟨e, rfl⟩
    · rw [heq]
      exact .stuck item value hitem hunlocked rfl rfl rfl

/-- A store to `enable`. -/
theorem storeEnable (p : Path) (page : List Char) (answers : Answers) :
    OpEffect fs (.storeEnable p page answers) (fs.exec (.storeEnable p page answers)) := by
  cases hitem : fs.items.lookup p with
  | none =>
    simp only [Configfs.exec, Configfs.store, hitem]
    exact fail _
  | some item =>
    rcases cfgStoreEnable_cases answers item.cfg page with
      ⟨ret, heq, hret⟩ | ⟨value, hunlocked, hvalue, hallocated⟩
    · simp only [Configfs.exec, Configfs.store, hitem, item.group.storeEnable_eq, heq]
      refine .quiet (lookup_insert_same hitem) rfl ?_
      rintro _ _ _ ⟨⟩ ha
      exact hret ha
    · rw [exec_storeEnable hitem hunlocked hvalue hallocated]
      exact .sent item value hitem hunlocked hvalue hallocated rfl rfl rfl

end OpEffect

/-- **The effect of an operation.** -/
theorem exec_effect (fs : Configfs) (op : CfgOp) : OpEffect fs op (fs.exec op) := by
  cases op with
  | mkdirGroup dir answers =>
    simp only [Configfs.exec]
    split
    · exact .fail _
    · split
      · exact .fail _
      · split
        · exact .fail _
        · exact .groups _ fun _ _ _ h => by cases h
  | rmdirGroup dir =>
    simp only [Configfs.exec]
    split
    · exact .fail _
    · split
      · exact .fail _
      · exact .groups _ fun _ _ _ h => by cases h
  | mkdir p answers =>
    simp only [Configfs.exec]
    split
    · exact .fail _
    · exact .fail _
    · rename_i g _
      split
      · exact .fail _
      · rename_i habsent
        exact .makeItem g p answers (AList.lookup_eq_none.mpr habsent)
  | rmdir p =>
    simp only [Configfs.exec]
    by_cases hp : p ∈ fs.items
    · obtain ⟨item, hitem⟩ := Option.isSome_iff_exists.mp (AList.lookup_isSome.mpr hp)
      rw [if_neg (not_not.mpr hp)]
      exact .removed item hitem rfl rfl
    · rw [if_pos hp]
      exact .fail _
  | storeWrite p page => exact .storeWrite p page
  | storeStickyValue p page => exact .storeStickyValue p page
  | storeEnable p page answers => exact .storeEnable p page answers

/-- What an operation sends is the message about an item. -/
theorem exec_sent {fs : Configfs} {op : CfgOp} {msg : PolicyMessage}
    (h : (fs.exec op).sent = some msg) :
    ∃ (item : Item) (enable : Bool), msg = policyMessage item.cfg item.cfg.row enable := by
  have heffect := exec_effect fs op
  generalize fs.exec op = result at h heffect
  have hquiet : result.sent = none →
      ∃ (item : Item) (enable : Bool), msg = policyMessage item.cfg item.cfg.row enable := by
    intro hnone
    rw [hnone] at h
    cases h
  cases heffect with
  | quiet _ hsent => exact hquiet hsent
  | made _ _ _ _ _ hsent => exact hquiet hsent
  | removed _ _ _ hsent => exact hquiet hsent
  | wrote _ _ _ _ _ hsent => exact hquiet hsent
  | stuck _ _ _ _ _ hsent => exact hquiet hsent
  | sent item value _ _ _ _ _ hsent =>
    rw [hsent] at h
    exact ⟨item, _, (Option.some_inj.mp h).symm⟩

end IkgtUsage
