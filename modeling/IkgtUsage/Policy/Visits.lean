import IkgtUsage.Policy.Script

/-!
# What applying a policy document does

Of a policy document only a few things matter for the items and the handler's map: the items whose
name the driver accepts, in the order they are visited, with the numbers stored to their attributes;
and the commands that fail whatever the items are. These are the visits of the document. An
`Outcome` follows them one by one, and `outcome_applyPolicy` says that this is what the script does.
-/

namespace IkgtUsage

open Lib

/-! ## One item -/

/-- The settings of an item. -/
structure Settings where
  enable : Bool
  locked : Bool
  write : BitVec 8
  stickyValue : U64
  deriving DecidableEq, Repr

/-- `write & POLICY_ACT_STICKY`. -/
def isSticky (write : BitVec 8) : Bool := write.zeroExtend 32 &&& policyActSticky ≠ 0

/-- An item that is visited: its settings, what the last message for it asked for, and whether a
store has failed. -/
structure ItemRun where
  settings : Settings
  asked : Option (Option Setting)
  exited : Bool
  deriving DecidableEq, Repr

namespace ItemRun

/-- An item that has just been created. -/
def fresh : ItemRun := ⟨⟨false, false, 0, 0⟩, none, false⟩

/-- A store of a number to an attribute; `none` is a command that fails. -/
def store (r : ItemRun) : Option (CfgAttr × U64) → ItemRun
  | none => { r with exited := true }
  | some (attr, value) =>
    if r.settings.locked then { r with exited := true }
    else
      match attr with
      | .write => { r with settings := { r.settings with write := value.truncate 8 } }
      | .stickyValue => { r with settings := { r.settings with stickyValue := value } }
      | .enable =>
        { r with
          settings := { r.settings with
            enable := value ≠ 0, locked := isSticky r.settings.write }
          asked := some (if value ≠ 0 then
            some ⟨r.settings.write.zeroExtend 32, r.settings.stickyValue⟩ else none) }

/-- Stores one after another, up to the first that fails. -/
def stores : List (Option (CfgAttr × U64)) → ItemRun → ItemRun
  | [], r => r
  | x :: xs, r =>
    let r := r.store x
    if r.exited then r else stores xs r

end ItemRun

/-! ## Visits -/

/-- An item of the document whose name the driver accepts, and what is stored to it. -/
structure ItemVisit where
  path : Path
  group : CfgGroup
  item : ConfigItem group.kind
  stores : List (Option (CfgAttr × U64))

namespace ItemVisit

/-- The item with some settings. -/
def withSettings (v : ItemVisit) (settings : Settings) : Item :=
  ⟨v.group, ⟨v.item, settings.enable, settings.locked, settings.write, settings.stickyValue⟩⟩

/-- The resource the item stands for. -/
def resource (v : ItemVisit) : ResourceId := (v.withSettings ItemRun.fresh.settings).resource

/-- What the stores come to. -/
def run (v : ItemVisit) : ItemRun := ItemRun.fresh.stores v.stores

end ItemVisit

/-- What matters of a document, in the order it is visited. -/
inductive Visit
  /-- A command that fails. -/
  | stop
  /-- An item. -/
  | item (v : ItemVisit)

/-- What an entry of an item's dictionary stores. -/
def storeOf (sh : Shell) : DictEntry → Option (Option (CfgAttr × U64))
  | (key, .text value) =>
    if key = logVal then if sh.touch value then none else some none
    else (CfgAttr.ofName key).map fun attr => (kstrtoul (sh.echo value) 0).map (attr, ·)
  | (_, .dict _) => none

/-- What a text does in the base directory and in a section. -/
def textVisits (sh : Shell) (key value : List Char) : List Visit :=
  if key = logVal then if sh.touch value then [] else [.stop]
  else if key = "description".toList then [.stop]
  else []

/-- The visit of an item, if the driver accepts its name. -/
def itemVisits (sh : Shell) (dir : List Char) (g : CfgGroup) : DictEntry → List Visit
  | (key, .text value) => textVisits sh key value
  | (name, .dict entries) =>
    if h : (g.kind.validAttr name).isSome = true then
      [.item ⟨⟨dir, name⟩, g, ⟨name, h⟩, entries.filterMap (storeOf sh)⟩]
    else []

/-- What a value of the log section does. -/
def logVisits (sh : Shell) : DictEntry → List Visit
  | (key, .text value) => if key = logVal ∧ sh.touch value = false then [.stop] else []
  | (_, .dict _) => []

/-- What an entry of a section does, by the type the driver gives its directory. -/
def entryVisits (sh : Shell) (dir : List Char) : Option GroupType → DictEntry → List Visit
  | none => fun _ => []
  | some .log => logVisits sh
  | some (.items g) => itemVisits sh dir g

/-- The visits of a section. -/
def sectionVisits (sh : Shell) : DictEntry → List Visit
  | (key, .text value) => textVisits sh key value
  | (key, .dict entries) => entries.flatMap (entryVisits sh key (groupChildrenMakeGroup key))

/-- The visits of a document. -/
def visitsOf (sh : Shell) (policyData : List DictEntry) : List Visit :=
  policyData.flatMap (sectionVisits sh)

/-! ## Outcomes -/

/-- The items and the handler's map, and whether the script has exited. -/
structure Outcome where
  items : Path → Option Item
  table : U32 → Option Setting
  exited : Bool

/-- What a script has left. -/
def ScriptState.outcome (s : ScriptState) : Outcome :=
  ⟨fun p => s.sys.fs.items.lookup p, s.sys.table, s.exited⟩

namespace Outcome

/-- No item, no message. -/
def start : Outcome := ⟨fun _ => none, fun _ => none, false⟩

/-- An item has been visited, up to `r`. -/
def withRun (o : Outcome) (v : ItemVisit) (r : ItemRun) : Outcome where
  items := Function.update o.items v.path (some (v.withSettings r.settings))
  table :=
    match r.asked with
    | none => o.table
    | some asked => Function.update o.table v.resource.code asked
  exited := r.exited

/-- A visit. -/
def visit (o : Outcome) : Visit → Outcome
  | .stop => { o with exited := true }
  | .item v => o.withRun v v.run

/-- Visits one after another, up to the first at which the script exits. -/
def visits : List Visit → Outcome → Outcome
  | [], o => o
  | v :: vs, o =>
    let o := o.visit v
    if o.exited then o else visits vs o

theorem withRun_items_self (o : Outcome) (v : ItemVisit) (r : ItemRun) :
    (o.withRun v r).items v.path = some (v.withSettings r.settings) := by
  unfold withRun
  exact Function.update_self _ _ _

theorem withRun_items_of_ne {p : Path} {v : ItemVisit} (hp : p ≠ v.path) (o : Outcome)
    (r : ItemRun) : (o.withRun v r).items p = o.items p := by
  unfold withRun
  exact Function.update_of_ne hp _ _

theorem withRun_table {o : Outcome} {v : ItemVisit} {r : ItemRun} {asked : Option Setting}
    (h : r.asked = some asked) :
    (o.withRun v r).table = Function.update o.table v.resource.code asked := by
  unfold withRun
  rw [h]

theorem update_withRun_table (o : Outcome) (v : ItemVisit) (r : ItemRun)
    (asked : Option Setting) :
    Function.update (o.withRun v r).table v.resource.code asked =
      Function.update o.table v.resource.code asked := by
  unfold withRun
  cases r.asked with
  | none => rfl
  | some asked' => exact Function.update_idem _ _ _

@[simp] theorem visits_singleton (v : Visit) (o : Outcome) : visits [v] o = o.visit v := by
  simp [visits]

theorem visits_append {vs : List Visit} (ws : List Visit) {o : Outcome} (h : o.exited = false) :
    visits (vs ++ ws) o =
      if (visits vs o).exited then visits vs o else visits ws (visits vs o) := by
  induction vs generalizing o with
  | nil => simp [visits, h]
  | cons v vs ih =>
    rw [List.cons_append, visits, visits]
    by_cases hexit : (o.visit v).exited = true
    · rw [if_pos hexit, if_pos hexit, if_pos hexit]
    · rw [if_neg hexit, if_neg hexit]
      exact ih (by simpa using hexit)

/-- A visit changes the items it visits. -/
theorem visits_items_of_not_mem {vs : List Visit} {p : Path}
    (h : ∀ v, Visit.item v ∈ vs → v.path ≠ p) (o : Outcome) :
    (visits vs o).items p = o.items p := by
  induction vs generalizing o with
  | nil => rfl
  | cons v vs ih =>
    have hvisit : (o.visit v).items p = o.items p := by
      cases v with
      | stop => rfl
      | item v => exact withRun_items_of_ne (h v List.mem_cons_self).symm o v.run
    rw [visits]
    by_cases hexit : (o.visit v).exited = true
    · rw [if_pos hexit, hvisit]
    · rw [if_neg hexit, ih (fun w hw => h w (List.mem_cons_of_mem _ hw)), hvisit]

end Outcome

/-! ## The stores of an item -/

/-- A store to an attribute, whose message is allocated and delivered. -/
def cfgStore {k : CfgKind} (cfg : Cfg k) (page : List Char) : CfgAttr → StoreResult k
  | .enable => cfgStoreEnable ⟨true, true⟩ cfg page
  | .write => cfgStoreWrite cfg page
  | .stickyValue => cfgStoreStickyValue cfg page

theorem exec_store {fs : Configfs} {p : Path} {item : Item}
    (hitem : fs.items.lookup p = some item) (attr : CfgAttr) (page : List Char) :
    fs.exec (attr.store p page) =
      ⟨{ fs with items := fs.items.insert p ⟨item.group, (cfgStore item.cfg page attr).cfg⟩ },
        (cfgStore item.cfg page attr).sent, (cfgStore item.cfg page attr).ret⟩ := by
  cases attr with
  | enable =>
    simp only [CfgAttr.store, Configfs.exec, Configfs.store, hitem, item.group.storeEnable_eq]
    rfl
  | write =>
    simp only [CfgAttr.store, Configfs.exec, Configfs.store, hitem, item.group.storeWrite_eq]
    rfl
  | stickyValue =>
    simp only [CfgAttr.store, Configfs.exec, Configfs.store, hitem, item.group.storeStickyValue_eq]
    rfl

/-- A store that fails leaves the item. -/
theorem cfgStore_fails {k : CfgKind} (cfg : Cfg k) {page : List Char}
    (h : kstrtoul page 0 = none ∨ cfg.locked = true) (attr : CfgAttr) :
    ∃ e, cfgStore cfg page attr = ⟨cfg, none, .error e⟩ := by
  cases attr with
  | enable =>
    unfold cfgStore cfgStoreEnable
    cases hnumber : kstrtoul page 0 with
    | none => exact ⟨_, rfl⟩
    | some value =>
      rw [hnumber] at h
      simp only
      rw [if_pos (h.resolve_left (Option.some_ne_none value))]
      exact ⟨_, rfl⟩
  | write =>
    rcases cfgStoreWrite_cases cfg page with hfail | ⟨value, hunlocked, hnumber, -⟩
    · exact hfail
    · rw [hnumber, hunlocked] at h
      exact absurd h (by simp)
  | stickyValue =>
    rcases cfgStoreStickyValue_cases cfg page with hfail | ⟨value, hunlocked, hnumber, -⟩
    · exact hfail
    · rw [hnumber, hunlocked] at h
      exact absurd h (by simp)

theorem asks_policyMessage {k : CfgKind} (cfg : Cfg k) (row : NameValueMap) (enable : Bool) :
    (policyMessage cfg row enable).asks =
      if enable then some ⟨cfg.write.zeroExtend 32, cfg.stickyValue⟩ else none := by
  cases enable with
  | false => rfl
  | true => rfl

/-- The store leaves the item and sends what the run of the item says. -/
structure StoreSpec (v : ItemVisit) (r r' : ItemRun) (attr : CfgAttr)
    (result : StoreResult (v.withSettings r.settings).group.kind) : Prop where
  cfg : result.cfg = (v.withSettings r'.settings).cfg
  ret : result.ret.isOk = !r'.exited
  sent : result.sent = none ∧ r'.asked = r.asked ∨
    ∃ msg, attr = .enable ∧ result.sent = some msg ∧
      msg.policyData.resourceId = v.resource.code ∧ r'.asked = some msg.asks

section StoreSpec

variable (v : ItemVisit) {r : ItemRun} {page : List Char} {value : U64}

theorem store_of_fails (h : kstrtoul page 0 = none ∨ r.settings.locked = true) (attr : CfgAttr) :
    r.store ((kstrtoul page 0).map (attr, ·)) = { r with exited := true } := by
  cases hnumber : kstrtoul page 0 with
  | none => rfl
  | some value => exact if_pos (h.resolve_left (by simp [hnumber]))

theorem storeSpec_fails (h : kstrtoul page 0 = none ∨ r.settings.locked = true) (attr : CfgAttr) :
    StoreSpec v r (r.store ((kstrtoul page 0).map (attr, ·))) attr
      (cfgStore (v.withSettings r.settings).cfg page attr) := by
  obtain ⟨e, he⟩ := cfgStore_fails (v.withSettings r.settings).cfg h attr
  rw [store_of_fails h]
  constructor
  · rw [he]
  · rw [he]
    rfl
  · rw [he]
    exact Or.inl ⟨rfl, rfl⟩

theorem storeSpec_write (hrun : r.exited = false) (hunlocked : r.settings.locked = false)
    (hvalue : kstrtoul page 0 = some value) :
    StoreSpec v r (r.store (some (.write, value))) .write
      (cfgStore (v.withSettings r.settings).cfg page .write) := by
  have hlocked : (v.withSettings r.settings).cfg.locked = false := hunlocked
  have hresult : cfgStore (v.withSettings r.settings).cfg page .write =
      ⟨{ (v.withSettings r.settings).cfg with write := value.truncate 8 }, none,
        .ok page.length⟩ := by
    unfold cfgStore cfgStoreWrite
    simp only [hlocked, Bool.false_eq_true, if_false, hvalue]
  have hrun' : r.store (some (.write, value)) =
      { r with settings := { r.settings with write := value.truncate 8 } } := by
    unfold ItemRun.store
    simp only [hunlocked, Bool.false_eq_true, if_false]
  rw [hresult, hrun']
  exact ⟨rfl, by rw [hrun]; rfl, Or.inl ⟨rfl, rfl⟩⟩

theorem storeSpec_stickyValue (hrun : r.exited = false) (hunlocked : r.settings.locked = false)
    (hvalue : kstrtoul page 0 = some value) :
    StoreSpec v r (r.store (some (.stickyValue, value))) .stickyValue
      (cfgStore (v.withSettings r.settings).cfg page .stickyValue) := by
  have hlocked : (v.withSettings r.settings).cfg.locked = false := hunlocked
  have hresult : cfgStore (v.withSettings r.settings).cfg page .stickyValue =
      ⟨{ (v.withSettings r.settings).cfg with stickyValue := value }, none, .ok page.length⟩ := by
    unfold cfgStore cfgStoreStickyValue
    simp only [hlocked, Bool.false_eq_true, if_false, hvalue]
  have hrun' : r.store (some (.stickyValue, value)) =
      { r with settings := { r.settings with stickyValue := value } } := by
    unfold ItemRun.store
    simp only [hunlocked, Bool.false_eq_true, if_false]
  rw [hresult, hrun']
  exact ⟨rfl, by rw [hrun]; rfl, Or.inl ⟨rfl, rfl⟩⟩

theorem storeSpec_enable (hrun : r.exited = false) (hunlocked : r.settings.locked = false)
    (hvalue : kstrtoul page 0 = some value) :
    StoreSpec v r (r.store (some (.enable, value))) .enable
      (cfgStore (v.withSettings r.settings).cfg page .enable) := by
  have hlocked : (v.withSettings r.settings).cfg.locked = false := hunlocked
  have hallocated : (⟨true, true⟩ : Answers).allocated = true := rfl
  have hresult := cfgStoreEnable_sent hvalue hlocked hallocated
  have hrun' : r.store (some (.enable, value)) = { r with
      settings := { r.settings with enable := value ≠ 0, locked := isSticky r.settings.write }
      asked := some (if value ≠ 0 then
        some ⟨r.settings.write.zeroExtend 32, r.settings.stickyValue⟩ else none) } := by
    unfold ItemRun.store
    simp only [hunlocked, Bool.false_eq_true, if_false]
  unfold cfgStore
  rw [hresult, hrun']
  refine ⟨?_, by rw [hrun]; rfl, Or.inr ⟨_, rfl, rfl, rfl, ?_⟩⟩
  · unfold Cfg.enabled
    simp only [if_true, hlocked, Bool.false_or]
    rfl
  · rw [asks_policyMessage]
    simp only [decide_eq_true_eq]
    rfl

/-- **A store follows `ItemRun.store`.** -/
theorem cfgStore_spec (hrun : r.exited = false) (attr : CfgAttr) (page : List Char) :
    StoreSpec v r (r.store ((kstrtoul page 0).map (attr, ·))) attr
      (cfgStore (v.withSettings r.settings).cfg page attr) := by
  by_cases hfails : kstrtoul page 0 = none ∨ r.settings.locked = true
  · exact storeSpec_fails v hfails attr
  obtain ⟨hnumber, hlocked⟩ := not_or.mp hfails
  obtain ⟨value, hvalue⟩ := Option.ne_none_iff_exists'.mp hnumber
  have hunlocked : r.settings.locked = false := Bool.eq_false_iff.mpr hlocked
  rw [hvalue]
  cases attr with
  | write => exact storeSpec_write v hrun hunlocked hvalue
  | stickyValue => exact storeSpec_stickyValue v hrun hunlocked hvalue
  | enable => exact storeSpec_enable v hrun hunlocked hvalue

end StoreSpec

/-- A command that the script checks. -/
theorem outcome_checked (s : ScriptState) (ok : Bool) :
    (if ok then s else s.exit).outcome = { s.outcome with exited := s.exited || !ok } := by
  cases ok with
  | true => simp [ScriptState.outcome]
  | false => simp [ScriptState.outcome, ScriptState.exit]

/-- A store to the item that is visited. -/
theorem outcome_echoTo (sh : Shell) {s : ScriptState} {o : Outcome} {v : ItemVisit} {r : ItemRun}
    (hs : s.outcome = o.withRun v r) (hrun : r.exited = false) (attr : CfgAttr)
    (value : List Char) :
    let s' := s.echoTo sh attr.name value (.item v.path)
    s'.sys.fs.groups = s.sys.fs.groups ∧
      s'.outcome = o.withRun v (r.store ((kstrtoul (sh.echo value) 0).map (attr, ·))) := by
  intro s'
  have hitems := congrArg Outcome.items hs
  have htable := congrArg Outcome.table hs
  have hitem : s.sys.fs.items.lookup v.path = some (v.withSettings r.settings) :=
    (congrFun hitems v.path).trans (o.withRun_items_self v r)
  have hs' : s' = if (s.exec (attr.store v.path (sh.echo value))).1 then
      (s.exec (attr.store v.path (sh.echo value))).2
      else (s.exec (attr.store v.path (sh.echo value))).2.exit := by
    change s.echoTo sh attr.name value (.item v.path) = _
    simp only [ScriptState.echoTo, CfgAttr.ofName_name]
  have heq := exec_store hitem attr (sh.echo value)
  obtain ⟨hcfg, hret, hsent⟩ := cfgStore_spec v hrun attr (sh.echo value)
  generalize cfgStore (v.withSettings r.settings).cfg (sh.echo value) attr = result
    at heq hcfg hret hsent
  generalize r.store ((kstrtoul (sh.echo value) 0).map (attr, ·)) = r' at hcfg hret hsent ⊢
  rw [hs']
  unfold ScriptState.exec lockStep
  rw [heq, outcome_checked, hcfg]
  refine ⟨by split <;> rfl, ?_⟩
  have hitems' : (fun p => (s.sys.fs.items.insert v.path (v.withSettings r'.settings)).lookup p) =
      (o.withRun v r').items := by
    funext p
    by_cases hp : p = v.path
    · rw [hp, AList.lookup_insert]
      exact (o.withRun_items_self v r').symm
    · rw [AList.lookup_insert_ne hp, Outcome.withRun_items_of_ne hp]
      exact (congrFun hitems p).trans (Outcome.withRun_items_of_ne hp o r)
  have htable' : tableAfter (attr.store v.path (sh.echo value)) s.sys.table result.sent =
      (o.withRun v r').table := by
    rw [show s.sys.table = (o.withRun v r).table from htable]
    rcases hsent with ⟨hnone, hasked⟩ | ⟨msg, rfl, hsome, hresource, hasked⟩
    · rw [hnone, tableAfter]
      unfold Outcome.withRun
      rw [hasked]
    · rw [hsome, Outcome.withRun_table hasked, ← Outcome.update_withRun_table o v r, ← hresource]
      rfl
  have hexited : (s.exited || !result.ret.isOk) = r'.exited := by
    rw [hret, show s.exited = r.exited from congrArg Outcome.exited hs, hrun]
    simp
  refine (congrArg₂ (Outcome.mk · · _) hitems' htable').trans ?_
  exact congrArg (Outcome.mk _ _) hexited

/-! ## The walk over an item -/

theorem name_ne_logVal (attr : CfgAttr) : attr.name ≠ logVal := by
  cases attr <;> decide

theorem eq_name_of_ofName {key : List Char} {attr : CfgAttr} (h : CfgAttr.ofName key = some attr) :
    key = attr.name := by
  unfold CfgAttr.ofName at h
  split_ifs at h with henable hwrite hstickyValue
  · exact henable.trans (congrArg CfgAttr.name (Option.some_inj.mp h))
  · exact hwrite.trans (congrArg CfgAttr.name (Option.some_inj.mp h))
  · exact hstickyValue.trans (congrArg CfgAttr.name (Option.some_inj.mp h))

/-- An entry of an item: it stores nothing, or what `storeOf` says. -/
theorem outcome_parseEntry_item (sh : Shell) (entry : DictEntry) {s : ScriptState} {o : Outcome}
    {v : ItemVisit} {r : ItemRun} (hs : s.outcome = o.withRun v r) (hrun : r.exited = false) :
    let s' := parseEntry sh (.item v.path) entry s
    s'.sys.fs.groups = s.sys.fs.groups ∧
      s'.outcome = o.withRun v ((storeOf sh entry).elim r r.store) := by
  intro s'
  obtain ⟨key, value⟩ := entry
  cases value with
  | dict entries =>
    have hs' : s' = s := by
      change parseEntry sh (.item v.path) (key, .dict entries) s = s
      rw [parseEntry, parseValue]
      rfl
    rw [hs']
    exact ⟨rfl, hs⟩
  | text value =>
    have hs' : s' = if key = logVal then if sh.touch value then s else s.exit
        else if s.pathExists key (.item v.path) then s.echoTo sh key value (.item v.path)
        else s := by
      change parseEntry sh (.item v.path) (key, .text value) s = _
      rw [parseEntry, parseValue]
    rw [hs', storeOf]
    by_cases hkey : key = logVal
    · rw [if_pos hkey, if_pos hkey]
      cases sh.touch value with
      | true => exact ⟨rfl, hs⟩
      | false => exact ⟨rfl, congrArg (fun o => { o with exited := true }) hs⟩
    rw [if_neg hkey, if_neg hkey]
    cases hattr : CfgAttr.ofName key with
    | none =>
      rw [if_neg (by simp [ScriptState.pathExists, hattr])]
      exact ⟨rfl, hs⟩
    | some attr =>
      rw [if_pos (by simp [ScriptState.pathExists, hattr]), eq_name_of_ofName hattr]
      exact outcome_echoTo sh hs hrun attr value

/-- **The walk over an item** stores the numbers. -/
theorem outcome_walk_item (sh : Shell) (entries : List DictEntry) {s : ScriptState} {o : Outcome}
    {v : ItemVisit} {r : ItemRun} (hs : s.outcome = o.withRun v r) (hrun : r.exited = false) :
    let s' := parseAndCreateDirStructure sh (.item v.path) entries s
    s'.sys.fs.groups = s.sys.fs.groups ∧
      s'.outcome = o.withRun v (r.stores (entries.filterMap (storeOf sh))) := by
  induction entries generalizing s r with
  | nil => exact ⟨by rw [parseAndCreateDirStructure], by rw [parseAndCreateDirStructure]; exact hs⟩
  | cons entry rest ih =>
    obtain ⟨hgroups, houtcome⟩ := outcome_parseEntry_item sh entry hs hrun
    rw [parseAndCreateDirStructure]
    generalize parseEntry sh (.item v.path) entry s = s₁ at hgroups houtcome
    have hexited : s₁.exited = ((storeOf sh entry).elim r r.store).exited :=
      congrArg Outcome.exited houtcome
    cases hstore : storeOf sh entry with
    | none =>
      rw [hstore] at houtcome hexited
      rw [List.filterMap_cons_none hstore, hexited, Option.elim_none, hrun]
      have hrest := ih houtcome hrun
      exact ⟨hrest.1.trans hgroups, hrest.2⟩
    | some x =>
      rw [hstore] at houtcome hexited
      rw [List.filterMap_cons_some hstore, ItemRun.stores, hexited, Option.elim_some]
      by_cases hexit : (r.store x).exited = true
      · simp only [if_pos hexit]
        exact ⟨hgroups, houtcome⟩
      · simp only [if_neg hexit]
        have hrest := ih houtcome (by simpa using hexit)
        exact ⟨hrest.1.trans hgroups, hrest.2⟩

/-! ## The walk over a section -/

/-- What an entry of a directory does: the groups and the outcome after it. -/
def Follows (s s' : ScriptState) (vs : List Visit) : Prop :=
  s'.sys.fs.groups = s.sys.fs.groups ∧ s'.outcome = Outcome.visits vs s.outcome

theorem Follows.refl (s : ScriptState) : Follows s s [] := ⟨rfl, rfl⟩

theorem Follows.exit (s : ScriptState) : Follows s s.exit [.stop] := ⟨rfl, rfl⟩

/-- `os.mkdir` of a name the driver does not accept. -/
theorem exec_mkdir_invalid {s : ScriptState} {dir name : List Char} {g : CfgGroup}
    (hgroup : s.sys.fs.groups.lookup dir = some (.items g)) (hname : g.kind.validAttr name = none) :
    s.exec (.mkdir ⟨dir, name⟩ ⟨true, true⟩) = (false, s) := by
  have hfail : ∃ e, s.sys.fs.exec (.mkdir ⟨dir, name⟩ ⟨true, true⟩) = s.sys.fs.fail e := by
    simp only [Configfs.exec, hgroup, g.makeItem_eq, makeItem, hname]
    split
    · exact ⟨_, rfl⟩
    · exact ⟨_, rfl⟩
  obtain ⟨e, he⟩ := hfail
  unfold ScriptState.exec lockStep
  rw [he]
  rfl

/-- `os.mkdir` of a name the driver accepts. -/
theorem exec_mkdir_item {s : ScriptState} {dir name : List Char} {g : CfgGroup}
    (hgroup : s.sys.fs.groups.lookup dir = some (.items g))
    (hname : (g.kind.validAttr name).isSome = true) (habsent : s.outcome.items ⟨dir, name⟩ = none)
    (hrun : s.exited = false) (stores : List (Option (CfgAttr × U64))) :
    ∃ s', s.exec (.mkdir ⟨dir, name⟩ ⟨true, true⟩) = (true, s') ∧
      s'.sys.fs.groups = s.sys.fs.groups ∧
      s'.outcome = s.outcome.withRun ⟨⟨dir, name⟩, g, ⟨name, hname⟩, stores⟩ .fresh := by
  have hmade : s.sys.fs.exec (.mkdir ⟨dir, name⟩ ⟨true, true⟩) =
      ⟨{ s.sys.fs with
          items := s.sys.fs.items.insert ⟨dir, name⟩ ⟨g, ⟨⟨name, hname⟩, false, false, 0, 0⟩⟩ },
        none, .ok 0⟩ := by
    have habsent' : (⟨dir, name⟩ : Path) ∉ s.sys.fs.items := AList.lookup_eq_none.mp habsent
    simp only [Configfs.exec, hgroup, if_neg habsent', g.makeItem_eq, makeItem, dif_pos hname]
    rfl
  refine ⟨(s.exec (.mkdir ⟨dir, name⟩ ⟨true, true⟩)).2, ?_, ?_⟩
  · unfold ScriptState.exec
    rw [hmade]
    rfl
  unfold ScriptState.exec lockStep
  rw [hmade]
  refine ⟨rfl, ?_⟩
  unfold ScriptState.outcome Outcome.withRun
  simp only [Outcome.mk.injEq]
  refine ⟨funext fun p => ?_, rfl, hrun⟩
  by_cases hp : p = ⟨dir, name⟩
  · rw [hp, AList.lookup_insert, Function.update_self]
    rfl
  · rw [AList.lookup_insert_ne hp, Function.update_of_ne hp]

theorem pathExists_base {s : ScriptState} {key : List Char} (habsent : key ∉ s.sys.fs.groups) :
    s.pathExists key .base = decide (key = "description".toList) :=
  decide_eq_decide.mpr (or_iff_left habsent)

theorem pathExists_group {s : ScriptState} {dir key : List Char} {g : CfgGroup}
    (hgroup : s.sys.fs.groups.lookup dir = some (.items g))
    (habsent : s.outcome.items ⟨dir, key⟩ = none) :
    s.pathExists key (.group dir) = decide (key = "description".toList) := by
  have hlog : ¬ s.sys.fs.groups.lookup dir = some .log := by
    rw [hgroup]
    exact fun h => by cases h
  have habsent' : (⟨dir, key⟩ : Path) ∉ s.sys.fs.items := AList.lookup_eq_none.mp habsent
  simp only [ScriptState.pathExists, if_neg hlog]
  exact decide_eq_decide.mpr (or_iff_left habsent')

/-- A text outside of the items. -/
theorem follows_text (sh : Shell) {s : ScriptState} {cwd : Cwd} {key : List Char}
    (hexists : s.pathExists key cwd = decide (key = "description".toList)) (value : List Char)
    (hecho : s.echoTo sh key value cwd = s.exit) :
    Follows s (parseEntry sh cwd (key, .text value) s) (textVisits sh key value) := by
  rw [parseEntry, parseValue]
  unfold textVisits
  by_cases hkey : key = logVal
  · rw [if_pos hkey, if_pos hkey]
    cases sh.touch value with
    | true => exact Follows.refl s
    | false => exact Follows.exit s
  rw [if_neg hkey, if_neg hkey, hexists, hecho]
  by_cases hdescription : key = "description".toList
  · rw [if_pos hdescription, if_pos (decide_eq_true hdescription)]
    exact Follows.exit s
  · rw [if_neg hdescription, decide_eq_false hdescription]
    exact Follows.refl s

/-- An entry of a section. -/
theorem follows_item (sh : Shell) {s : ScriptState} {dir : List Char} {g : CfgGroup}
    {entry : DictEntry} (hgroup : s.sys.fs.groups.lookup dir = some (.items g))
    (habsent : s.outcome.items ⟨dir, entry.1⟩ = none) (hrun : s.exited = false) :
    Follows s (parseEntry sh (.group dir) entry s) (itemVisits sh dir g entry) := by
  obtain ⟨name, value⟩ := entry
  cases value with
  | text value => exact follows_text sh (pathExists_group hgroup habsent) value rfl
  | dict entries =>
    rw [parseEntry, parseValue, itemVisits]
    simp only [Cwd.mkdir, Cwd.chdir]
    by_cases hname : (g.kind.validAttr name).isSome = true
    · obtain ⟨s', hexec, hgroups, houtcome⟩ :=
        exec_mkdir_item hgroup hname habsent hrun (entries.filterMap (storeOf sh))
      rw [dif_pos hname, hexec]
      have hwalk := outcome_walk_item sh entries houtcome rfl
      refine ⟨hwalk.1.trans hgroups, ?_⟩
      rw [Outcome.visits_singleton]
      exact hwalk.2
    · rw [dif_neg hname, exec_mkdir_invalid hgroup (by simpa using hname)]
      exact Follows.refl s

/-- **A walk is its visits**, if every entry is and leaves the rest as it has to be. -/
theorem outcome_walk (sh : Shell) (cwd : Cwd) (f : DictEntry → List Visit)
    (Inv : List DictEntry → ScriptState → Prop)
    (hstep : ∀ entry rest s, Inv (entry :: rest) s → s.exited = false →
      (parseEntry sh cwd entry s).outcome = Outcome.visits (f entry) s.outcome ∧
        Inv rest (parseEntry sh cwd entry s))
    (entries : List DictEntry) {s : ScriptState} (hinv : Inv entries s) (hrun : s.exited = false) :
    (parseAndCreateDirStructure sh cwd entries s).outcome =
        Outcome.visits (entries.flatMap f) s.outcome ∧
      ∃ rest, Inv rest (parseAndCreateDirStructure sh cwd entries s) := by
  induction entries generalizing s with
  | nil =>
    rw [parseAndCreateDirStructure]
    exact ⟨rfl, [], hinv⟩
  | cons entry rest ih =>
    obtain ⟨houtcome, hrest⟩ := hstep entry rest s hinv hrun
    have hexited := congrArg Outcome.exited houtcome
    rw [parseAndCreateDirStructure, List.flatMap_cons, Outcome.visits_append _ hrun, ← houtcome]
    generalize parseEntry sh cwd entry s = s' at houtcome hrest
    by_cases hexit : s'.exited = true
    · have hexit' : s'.outcome.exited = true := hexit
      simp only [if_pos hexit, if_pos hexit', true_and]
      exact ⟨rest, hrest⟩
    · have hexit' : ¬ s'.outcome.exited = true := hexit
      simp only [if_neg hexit, if_neg hexit']
      exact ih hrest (by simpa using hexit)

/-- The entries of a section that are still to be visited have no item yet. -/
structure SectionRest (groups : AList fun _ : List Char => GroupType) (dir : List Char)
    (entries : List DictEntry) (s : ScriptState) : Prop where
  groups_eq : s.sys.fs.groups = groups
  names : (entries.map Prod.fst).Nodup
  absent : ∀ entry ∈ entries, s.outcome.items ⟨dir, entry.1⟩ = none

theorem item_notMem_textVisits {sh : Shell} {key value : List Char} {v : ItemVisit} :
    Visit.item v ∉ textVisits sh key value := by
  unfold textVisits
  split_ifs <;> simp

theorem path_of_mem_itemVisits {sh : Shell} {dir : List Char} {g : CfgGroup} {entry : DictEntry}
    {v : ItemVisit} (h : Visit.item v ∈ itemVisits sh dir g entry) : v.path = ⟨dir, entry.1⟩ := by
  obtain ⟨name, value⟩ := entry
  cases value with
  | text value => exact absurd h item_notMem_textVisits
  | dict entries =>
    rw [itemVisits] at h
    split at h
    · rw [List.mem_singleton, Visit.item.injEq] at h
      rw [h]
    · cases h

/-- The walk over a section. -/
theorem follows_section (sh : Shell) {dir : List Char} {g : CfgGroup} {entries : List DictEntry}
    {s : ScriptState} (hgroup : s.sys.fs.groups.lookup dir = some (.items g))
    (hrest : SectionRest s.sys.fs.groups dir entries s) (hrun : s.exited = false) :
    Follows s (parseAndCreateDirStructure sh (.group dir) entries s)
      (entries.flatMap (itemVisits sh dir g)) := by
  have hwalk := outcome_walk sh (.group dir) (itemVisits sh dir g)
    (SectionRest s.sys.fs.groups dir) ?_ entries hrest hrun
  · exact ⟨hwalk.2.choose_spec.groups_eq, hwalk.1⟩
  intro entry rest s₁ hrest₁ hrun₁
  have hentry := follows_item sh (hrest₁.groups_eq ▸ hgroup)
    (hrest₁.absent entry List.mem_cons_self) hrun₁
  have hnames := List.nodup_cons.mp hrest₁.names
  refine ⟨hentry.2, hentry.1.trans hrest₁.groups_eq, hnames.2, fun entry' hmem => ?_⟩
  rw [hentry.2, Outcome.visits_items_of_not_mem ?_]
  · exact hrest₁.absent entry' (List.mem_cons_of_mem _ hmem)
  intro v hv hpath
  rw [path_of_mem_itemVisits hv, Path.mk.injEq] at hpath
  exact hnames.1 (List.mem_map.mpr ⟨entry', hmem, hpath.2.symm⟩)

/-! ## The walk over the document -/

theorem item_notMem_logVisits {sh : Shell} {entry : DictEntry} {v : ItemVisit} :
    Visit.item v ∉ logVisits sh entry := by
  obtain ⟨key, value⟩ := entry
  cases value with
  | text value =>
    rw [logVisits]
    split <;> simp
  | dict entries => exact List.not_mem_nil

/-- The walk over an entry of the log section. -/
theorem follows_log (sh : Shell) {s : ScriptState} {dir : List Char}
    (hgroup : s.sys.fs.groups.lookup dir = some .log)
    (habsent : ∀ name, s.outcome.items ⟨dir, name⟩ = none) (entry : DictEntry) :
    Follows s (parseEntry sh (.group dir) entry s) (logVisits sh entry) := by
  obtain ⟨key, value⟩ := entry
  cases value with
  | text value =>
    rw [parseEntry, parseValue, logVisits]
    by_cases hkey : key = logVal
    · rw [if_pos hkey]
      cases htouch : sh.touch value with
      | true => simpa using Follows.refl s
      | false => simpa [hkey] using Follows.exit s
    · have hexists : s.pathExists key (.group dir) = false := by
        have hmem : (⟨dir, key⟩ : Path) ∉ s.sys.fs.items := AList.lookup_eq_none.mp (habsent key)
        simp only [ScriptState.pathExists, if_pos hgroup]
        exact decide_eq_false (not_or.mpr ⟨hkey, hmem⟩)
      rw [if_neg hkey, hexists, if_neg (by simp), if_neg (fun h => hkey h.1)]
      exact Follows.refl s
  | dict entries =>
    have hfail : s.sys.fs.exec (.mkdir ⟨dir, key⟩ ⟨true, true⟩) = s.sys.fs.fail .eperm := by
      simp only [Configfs.exec, hgroup]
    rw [parseEntry, parseValue, logVisits]
    simp only [Cwd.mkdir, ScriptState.exec, lockStep, hfail]
    exact Follows.refl s

/-- The walk over the log section. -/
theorem follows_logSection (sh : Shell) {s : ScriptState} {dir : List Char}
    (hgroup : s.sys.fs.groups.lookup dir = some .log)
    (habsent : ∀ name, s.outcome.items ⟨dir, name⟩ = none) (entries : List DictEntry)
    (hrun : s.exited = false) :
    Follows s (parseAndCreateDirStructure sh (.group dir) entries s)
      (entries.flatMap (logVisits sh)) := by
  have hwalk := outcome_walk sh (.group dir) (logVisits sh)
    (fun _ s' => s'.sys.fs.groups = s.sys.fs.groups ∧
      ∀ name, s'.outcome.items ⟨dir, name⟩ = none) ?_ entries ⟨rfl, habsent⟩ hrun
  · exact ⟨hwalk.2.choose_spec.1, hwalk.1⟩
  rintro entry rest s₁ ⟨hgroups, habsent₁⟩ -
  have hentry := follows_log sh (hgroups ▸ hgroup) habsent₁ entry
  refine ⟨hentry.2, hentry.1.trans hgroups, fun name => ?_⟩
  rw [hentry.2, Outcome.visits_items_of_not_mem fun v hv => absurd hv ?_]
  · exact habsent₁ name
  exact item_notMem_logVisits

/-- The walk over a section of any type. -/
theorem follows_entries (sh : Shell) {s : ScriptState} {dir : List Char} {type : GroupType}
    (hgroup : s.sys.fs.groups.lookup dir = some type)
    (habsent : ∀ name, s.outcome.items ⟨dir, name⟩ = none) {entries : List DictEntry}
    (hnames : ∀ g, type = .items g → (entries.map Prod.fst).Nodup) (hrun : s.exited = false) :
    Follows s (parseAndCreateDirStructure sh (.group dir) entries s)
      (entries.flatMap (entryVisits sh dir (some type))) := by
  cases type with
  | log => exact follows_logSection sh hgroup habsent entries hrun
  | items g =>
    exact follows_section sh hgroup ⟨rfl, hnames g rfl, fun entry _ => habsent entry.1⟩ hrun

/-- `os.mkdir` of a group that is not there. -/
theorem exec_mkdirGroup {s : ScriptState} {key : List Char} (habsent : key ∉ s.sys.fs.groups) :
    (groupChildrenMakeGroup key = none ∧ s.exec (.mkdirGroup key ⟨true, true⟩) = (false, s)) ∨
      ∃ type s', groupChildrenMakeGroup key = some type ∧
        s.exec (.mkdirGroup key ⟨true, true⟩) = (true, s') ∧
        s'.sys.fs.groups = s.sys.fs.groups.insert key type ∧ s'.outcome = s.outcome := by
  unfold ScriptState.exec lockStep
  simp only [Configfs.exec, if_neg habsent]
  cases htype : groupChildrenMakeGroup key with
  | none => exact Or.inl ⟨rfl, rfl⟩
  | some type => exact Or.inr ⟨type, _, rfl, rfl, rfl, rfl⟩

/-- The sections that are still to be visited have no directory yet, and every item is in one. -/
structure DocumentRest (entries : List DictEntry) (s : ScriptState) : Prop where
  document : IsPolicyDocument entries
  absent : ∀ entry ∈ entries, entry.1 ∉ s.sys.fs.groups
  dirs : ∀ p, s.outcome.items p ≠ none → p.dir ∈ s.sys.fs.groups

theorem IsPolicyDocument.tail {entry : DictEntry} {rest : List DictEntry}
    (h : IsPolicyDocument (entry :: rest)) : IsPolicyDocument rest where
  plain := by
    have hplain := isPlainEntries_iff.mp h.plain
    exact isPlainEntries_iff.mpr fun e he => hplain e (List.mem_cons_of_mem _ he)
  keys := (List.nodup_cons.mp h.keys).2
  sections key entries g hmem := h.sections key entries g (List.mem_cons_of_mem _ hmem)

/-- A section that makes no directory and no item. -/
theorem DocumentRest.skip {entry : DictEntry} {rest : List DictEntry} {s s' : ScriptState}
    (h : DocumentRest (entry :: rest) s) (hgroups : s'.sys.fs.groups = s.sys.fs.groups)
    (hitems : s'.outcome.items = s.outcome.items) : DocumentRest rest s' where
  document := h.document.tail
  absent entry' hmem := hgroups ▸ h.absent entry' (List.mem_cons_of_mem _ hmem)
  dirs p hp := hgroups ▸ h.dirs p (hitems ▸ hp)

/-- A section that makes its directory. -/
theorem DocumentRest.made {key : List Char} {value : PolicyData} {rest : List DictEntry}
    {s s' : ScriptState} (h : DocumentRest ((key, value) :: rest) s) {type : GroupType}
    (hgroups : s'.sys.fs.groups = s.sys.fs.groups.insert key type)
    (hitems : ∀ p : Path, p.dir ≠ key → s'.outcome.items p = s.outcome.items p) :
    DocumentRest rest s' where
  document := h.document.tail
  absent entry hmem := by
    have hkeys : key ∉ rest.map Prod.fst := (List.nodup_cons.mp h.document.keys).1
    have hne : entry.1 ≠ key := fun heq => hkeys (List.mem_map.mpr ⟨entry, hmem, heq⟩)
    rw [hgroups, AList.mem_insert, not_or]
    exact ⟨hne, h.absent entry (List.mem_cons_of_mem _ hmem)⟩
  dirs p hp := by
    rw [hgroups, AList.mem_insert]
    by_cases hdir : p.dir = key
    · exact Or.inl hdir
    · exact Or.inr (h.dirs p (hitems p hdir ▸ hp))

/-- The items of a section are in it. -/
theorem path_of_mem_entryVisits {sh : Shell} {dir : List Char} {type : Option GroupType}
    {entry : DictEntry} {v : ItemVisit} (h : Visit.item v ∈ entryVisits sh dir type entry) :
    v.path = ⟨dir, entry.1⟩ := by
  cases type with
  | none => cases h
  | some type =>
    cases type with
    | log => exact absurd h item_notMem_logVisits
    | items g => exact path_of_mem_itemVisits h

theorem dir_of_mem_sectionVisits {sh : Shell} {entry : DictEntry} {v : ItemVisit}
    (h : Visit.item v ∈ sectionVisits sh entry) : v.path.dir = entry.1 := by
  obtain ⟨key, value⟩ := entry
  cases value with
  | text value => exact absurd h item_notMem_textVisits
  | dict entries =>
    obtain ⟨entry, -, hv⟩ := List.mem_flatMap.mp h
    rw [path_of_mem_entryVisits hv]

/-- The walk over a section of a document. -/
theorem documentRest_step (sh : Shell) (entry : DictEntry) (rest : List DictEntry)
    (s : ScriptState) (hrest : DocumentRest (entry :: rest) s) (hrun : s.exited = false) :
    (parseEntry sh .base entry s).outcome = Outcome.visits (sectionVisits sh entry) s.outcome ∧
      DocumentRest rest (parseEntry sh .base entry s) := by
  obtain ⟨key, value⟩ := entry
  have habsent := hrest.absent _ List.mem_cons_self
  have hkeep : ∀ p : Path, p.dir ≠ key →
      (Outcome.visits (sectionVisits sh (key, value)) s.outcome).items p = s.outcome.items p := by
    intro p hp
    refine Outcome.visits_items_of_not_mem (fun v hv hpath => hp ?_) s.outcome
    rw [← hpath, dir_of_mem_sectionVisits hv]
  cases value with
  | text value =>
    have htext := follows_text sh (pathExists_base habsent) value rfl
    refine ⟨htext.2, hrest.skip htext.1 ?_⟩
    rw [htext.2]
    funext p
    exact Outcome.visits_items_of_not_mem
      (fun v hv => absurd hv item_notMem_textVisits) s.outcome
  | dict entries =>
    rw [parseEntry, parseValue]
    simp only [Cwd.mkdir, Cwd.chdir]
    rcases exec_mkdirGroup habsent with ⟨htype, hexec⟩ | ⟨type, s₁, htype, hexec, hgroups, houtcome⟩
    · rw [hexec]
      refine ⟨?_, hrest.skip rfl rfl⟩
      have hnothing : entries.flatMap (entryVisits sh key none) = [] :=
        List.flatMap_eq_nil_iff.mpr fun _ _ => rfl
      rw [sectionVisits, htype, hnothing]
      rfl
    rw [hexec]
    simp only [if_true]
    have hnoItem : ∀ name, s₁.outcome.items ⟨key, name⟩ = none := by
      intro name
      rw [houtcome]
      by_contra hsome
      exact habsent (hrest.dirs _ hsome)
    have hlookup : s₁.sys.fs.groups.lookup key = some type := by
      rw [hgroups, AList.lookup_insert]
    have hrun₁ : s₁.exited = false := (congrArg Outcome.exited houtcome).trans hrun
    have hwalk : Follows s₁ (parseAndCreateDirStructure sh (.group key) entries s₁)
        (sectionVisits sh (key, .dict entries)) := by
      rw [sectionVisits, htype]
      refine follows_entries sh hlookup hnoItem (fun g hg => ?_) hrun₁
      exact (hrest.document.sections _ _ g List.mem_cons_self (htype.trans (hg ▸ rfl))).keys
    refine ⟨by rw [hwalk.2, houtcome], hrest.made (hwalk.1.trans hgroups) fun p hp => ?_⟩
    rw [hwalk.2, houtcome, hkeep p hp]

/-- **What the script leaves** is what the visits of the document come to. -/
theorem outcome_applyPolicy (sh : Shell) {policyData : List DictEntry}
    (hdocument : IsPolicyDocument policyData) :
    (applyPolicy sh policyData).outcome = Outcome.visits (visitsOf sh policyData) .start := by
  refine (outcome_walk sh .base (sectionVisits sh) DocumentRest (documentRest_step sh) policyData
    ⟨hdocument, ?_, ?_⟩ rfl).1
  · intro entry _
    exact AList.notMem_empty _
  · intro p hp
    exact absurd rfl hp

end IkgtUsage
