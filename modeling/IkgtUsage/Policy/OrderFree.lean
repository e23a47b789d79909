import IkgtUsage.Policy.Reordering

/-!
# Whether the order of the keys matters

Only a store to `enable` sends a message, with what is stored in `write` and `sticky_value` by then;
and it may lock the item against the stores that follow. So what a policy document comes to depends
on the order of its keys, which Python leaves open. `OrderFree` is the condition under which it does
not: two reorderings then have one closed form (`OrderFree.keyOrderIrrelevant`).
-/

namespace IkgtUsage

open Lib

/-! ## The condition -/

/-- The attribute of a new item has the number already; of `write` there are eight bits. -/
def CfgAttr.IsDefault : CfgAttr → U64 → Prop
  | .write, value => value.truncate 8 = (0 : BitVec 8)
  | .enable, value | .stickyValue, value => value = 0

namespace ItemVisit

/-- One of the commands fails, whatever was stored before. -/
def Fails (v : ItemVisit) : Prop := none ∈ v.stores

/-- What is stored to the attribute is what a new item has. -/
def StoresDefault (v : ItemVisit) (attr : CfgAttr) : Prop :=
  ∃ value, some (attr, value) ∈ v.stores ∧ attr.IsDefault value

/-- What is stored to `write` has STICKY. -/
def StoresSticky (v : ItemVisit) : Prop :=
  ∃ value, some (.write, value) ∈ v.stores ∧ isSticky (value.truncate 8) = true

/-- The order of the stores does not matter: a failing one hides nothing, and otherwise the item is
disabled and not sticky, or `write` and `sticky_value` are zero. -/
structure Settles (v : ItemVisit) : Prop where
  failing : v.Fails → ∀ attr value, some (attr, value) ∈ v.stores → attr.IsDefault value
  settled : ¬ v.Fails → v.StoresDefault .enable ∧ ¬ v.StoresSticky ∨
    v.StoresDefault .write ∧ v.StoresDefault .stickyValue

end ItemVisit

/-- The order of the visits does not matter. -/
structure OrderFree (vs : List Visit) : Prop where
  /-- A command that fails outside of the items: there are no items. -/
  stops : .stop ∈ vs → ∀ v, .item v ∉ vs
  /-- An item with a store that fails is the only one. -/
  alone : ∀ v w, .item v ∈ vs → .item w ∈ vs → v.Fails → w.path = v.path
  /-- The order of the stores of an item does not matter. -/
  settles : ∀ v, .item v ∈ vs → v.Settles
  /-- Items of one resource are all enabled or all disabled. -/
  agree : ∀ v w, .item v ∈ vs → .item w ∈ vs → v.resource = w.resource →
    (v.StoresDefault .enable ↔ w.StoresDefault .enable)

/-- Applying the document leaves the same, in whatever orders its keys are visited. -/
def KeyOrderIrrelevant (sh : Shell) (policyData : List DictEntry) : Prop :=
  ∀ policyData₁ policyData₂, Reordered (.dict policyData) (.dict policyData₁) →
    Reordered (.dict policyData) (.dict policyData₂) →
    SameOutcome (applyPolicy sh policyData₁) (applyPolicy sh policyData₂)

/-! ## The items of a document -/

/-- An item of a document. -/
theorem exists_of_mem_visitsOf {sh : Shell} {policyData : List DictEntry} {v : ItemVisit}
    (h : .item v ∈ visitsOf sh policyData) :
    ∃ key entries g name item, ∃ hname : (g.kind.validAttr name).isSome = true,
      (key, .dict entries) ∈ policyData ∧ groupChildrenMakeGroup key = some (.items g) ∧
      (name, .dict item) ∈ entries ∧
      v = ⟨⟨key, name⟩, g, ⟨name, hname⟩, item.filterMap (storeOf sh)⟩ := by
  obtain ⟨⟨key, value⟩, hsection, hv⟩ := List.mem_flatMap.mp h
  cases value with
  | text value => exact absurd hv item_notMem_textVisits
  | dict entries =>
    obtain ⟨⟨name, value⟩, hentry, hv⟩ := List.mem_flatMap.mp hv
    cases htype : groupChildrenMakeGroup key with
    | none =>
      rw [htype] at hv
      cases hv
    | some type =>
      rw [htype] at hv
      cases type with
      | log => exact absurd hv item_notMem_logVisits
      | items g =>
        cases value with
        | text value => exact absurd hv item_notMem_textVisits
        | dict item =>
          simp only [entryVisits, itemVisits] at hv
          split at hv
          · exact ⟨key, entries, g, name, item, ‹_›, hsection, htype, hentry,
              Visit.item.inj (List.mem_singleton.mp hv)⟩
          · cases hv

/-- A key has one value. -/
theorem value_eq_of_keys {entries : List DictEntry} (h : (entries.map Prod.fst).Nodup)
    {key : List Char} {value value' : PolicyData} (hv : (key, value) ∈ entries)
    (hv' : (key, value') ∈ entries) : value = value' :=
  congrArg Prod.snd (List.inj_on_of_nodup_map h hv hv' rfl)

/-- An item is visited once. -/
theorem IsPolicyDocument.eq_of_path {policyData : List DictEntry} (h : IsPolicyDocument policyData)
    {sh : Shell} {v w : ItemVisit} (hv : .item v ∈ visitsOf sh policyData)
    (hw : .item w ∈ visitsOf sh policyData) (hpath : w.path = v.path) : w = v := by
  obtain ⟨key, entries, g, name, item, hname, hsection, htype, hentry, rfl⟩ :=
    exists_of_mem_visitsOf hv
  obtain ⟨key', entries', g', name', item', hname', hsection', htype', hentry', rfl⟩ :=
    exists_of_mem_visitsOf hw
  obtain ⟨rfl, rfl⟩ := Path.mk.inj hpath
  obtain rfl := PolicyData.dict.inj (value_eq_of_keys h.keys hsection hsection')
  obtain rfl : g' = g := GroupType.items.inj (Option.some_inj.mp (htype'.symm.trans htype))
  have hkeys := (h.sections _ _ _ hsection htype).keys
  obtain rfl := PolicyData.dict.inj (value_eq_of_keys hkeys hentry hentry')
  rfl

/-- The numbers an item stores, in some order. -/
def ItemVisit.Numbers (v : ItemVisit) (value : CfgAttr → U64) : Prop :=
  v.stores.Perm [some (.write, value .write), some (.stickyValue, value .stickyValue),
    some (.enable, value .enable)]

/-- An item whose stores are all of numbers. -/
theorem IsPolicyDocument.exists_numbers {policyData : List DictEntry}
    (h : IsPolicyDocument policyData) {sh : Shell} {v : ItemVisit}
    (hv : .item v ∈ visitsOf sh policyData) (hfails : ¬ v.Fails) :
    ∃ value, v.Numbers value := by
  obtain ⟨key, entries, g, name, item, hname, hsection, htype, hentry, rfl⟩ :=
    exists_of_mem_visitsOf hv
  exact ((h.sections _ _ _ hsection htype).items _ _ hentry).stores_perm sh hfails

/-! ## The stores of one item -/

namespace ItemRun

theorem isSticky_zero : isSticky 0#8 = false := by decide

theorem exited_of_none_mem {xs : List (Option (CfgAttr × U64))} (h : none ∈ xs) (r : ItemRun) :
    (r.stores xs).exited = true := by
  induction xs generalizing r with
  | nil => cases h
  | cons x xs ih =>
    rw [stores]
    by_cases hexit : (r.store x).exited = true
    · rw [if_pos hexit, hexit]
    · rw [if_neg hexit]
      rcases List.mem_cons.mp h with rfl | h
      · exact absurd rfl hexit
      · exact ih h _

/-- A store of what the attribute has. -/
theorem store_default {r : ItemRun} (hsettings : r.settings = fresh.settings) {attr : CfgAttr}
    {value : U64} (h : attr.IsDefault value) :
    (r.store (some (attr, value))).settings = fresh.settings ∧
      (r.store (some (attr, value))).exited = r.exited ∧
      ((r.store (some (attr, value))).asked = r.asked ∨
        (r.store (some (attr, value))).asked = some none) := by
  obtain ⟨settings, asked, exited⟩ := r
  obtain rfl : settings = fresh.settings := hsettings
  cases attr with
  | write =>
    have hvalue : value.truncate 8 = (0 : BitVec 8) := h
    simp [store, fresh, hvalue]
  | stickyValue =>
    obtain rfl : value = 0 := h
    exact ⟨rfl, rfl, Or.inl rfl⟩
  | enable =>
    obtain rfl : value = 0 := h
    refine ⟨?_, rfl, Or.inr rfl⟩
    simp [store, fresh, isSticky_zero]

/-- Stores that leave a new item as it is, and one that fails. -/
theorem stores_failing {xs : List (Option (CfgAttr × U64))} (hnone : none ∈ xs)
    (hdefault : ∀ attr value, some (attr, value) ∈ xs → attr.IsDefault value) {r : ItemRun}
    (hsettings : r.settings = fresh.settings) (hrun : r.exited = false)
    (hasked : r.asked = none ∨ r.asked = some none) :
    (r.stores xs).settings = fresh.settings ∧
      ((r.stores xs).asked = none ∨ (r.stores xs).asked = some none) := by
  induction xs generalizing r with
  | nil => cases hnone
  | cons x xs ih =>
    rw [stores]
    cases x with
    | none => exact ⟨hsettings, hasked⟩
    | some x =>
      obtain ⟨attr, value⟩ := x
      obtain ⟨hsettings', hrun', hasked'⟩ :=
        store_default hsettings (hdefault attr value List.mem_cons_self)
      rw [hrun] at hrun'
      rw [if_neg (by rw [hrun']; exact Bool.false_ne_true)]
      refine ih (by simpa using hnone)
        (fun attr value hmem => hdefault attr value (List.mem_cons_of_mem _ hmem))
        hsettings' hrun' ?_
      rcases hasked' with hasked' | hasked'
      · rwa [hasked']
      · exact Or.inr hasked'

end ItemRun

namespace ItemVisit.Numbers

variable {v : ItemVisit} {value : CfgAttr → U64}

theorem mem_iff (h : v.Numbers value) {attr : CfgAttr} {number : U64} :
    some (attr, number) ∈ v.stores ↔ number = value attr := by
  rw [List.Perm.mem_iff h]
  cases attr <;> simp

theorem not_fails (h : v.Numbers value) : ¬ v.Fails := by
  unfold Fails
  rw [List.Perm.mem_iff h]
  simp

theorem storesDefault_iff (h : v.Numbers value) {attr : CfgAttr} :
    v.StoresDefault attr ↔ attr.IsDefault (value attr) := by
  constructor
  · rintro ⟨number, hnumber, hdefault⟩
    rwa [h.mem_iff.mp hnumber] at hdefault
  · intro hdefault
    exact ⟨value attr, h.mem_iff.mpr rfl, hdefault⟩

theorem storesSticky_iff (h : v.Numbers value) :
    v.StoresSticky ↔ isSticky ((value .write).truncate 8) = true := by
  constructor
  · rintro ⟨number, hnumber, hsticky⟩
    rwa [h.mem_iff.mp hnumber] at hsticky
  · intro hsticky
    exact ⟨value .write, h.mem_iff.mpr rfl, hsticky⟩

/-- When the order of the stores of numbers does not matter. -/
theorem settles_iff (h : v.Numbers value) :
    v.Settles ↔ value .enable = 0 ∧ ¬ isSticky ((value .write).truncate 8) = true ∨
      (value .write).truncate 8 = (0 : BitVec 8) ∧ value .stickyValue = 0 := by
  have hsettled : v.StoresDefault .enable ∧ ¬ v.StoresSticky ∨
      v.StoresDefault .write ∧ v.StoresDefault .stickyValue ↔
      value .enable = 0 ∧ ¬ isSticky ((value .write).truncate 8) = true ∨
      (value .write).truncate 8 = (0 : BitVec 8) ∧ value .stickyValue = 0 := by
    rw [h.storesDefault_iff, h.storesDefault_iff, h.storesDefault_iff, h.storesSticky_iff]
    rfl
  rw [← hsettled]
  exact ⟨fun hsettles => hsettles.settled h.not_fails,
    fun hsettled => ⟨fun hfails => absurd hfails h.not_fails, fun _ => hsettled⟩⟩

/-- **The run of an item** whose stores may come in any order. -/
theorem run_eq (h : v.Numbers value) (hsettles : v.Settles) :
    v.run = ⟨⟨value .enable ≠ 0, false, (value .write).truncate 8, value .stickyValue⟩,
      some (if value .enable ≠ 0 then some ⟨0, 0⟩ else none), false⟩ := by
  unfold run
  rcases h.settles_iff.mp hsettles with ⟨henable, hsticky⟩ | ⟨hwrite, hstickyValue⟩
  · rcases perm_three h with h | h | h | h | h | h <;>
      simp [h, ItemRun.stores, ItemRun.store, ItemRun.fresh, henable, hsticky,
        ItemRun.isSticky_zero]
  · rcases perm_three h with h | h | h | h | h | h <;>
      simp [h, ItemRun.stores, ItemRun.store, ItemRun.fresh, hwrite, hstickyValue,
        ItemRun.isSticky_zero]

end ItemVisit.Numbers

/-! ## The order does not matter -/

/-- The item a visit leaves. -/
def Visit.itemPair : Visit → Option (Path × Option Item)
  | .stop => none
  | .item v => some (v.path, some (v.withSettings v.run.settings))

/-- The entry of the handler's map a visit leaves. -/
def Visit.tablePair : Visit → Option (U32 × Option Setting)
  | .stop => none
  | .item v => v.run.asked.map fun asked => (v.resource.code, asked)

/-- No visit ends the script. -/
def NoneExits (vs : List Visit) : Prop := ∀ x ∈ vs, ∃ v, x = .item v ∧ v.run.exited = false

namespace Outcome

/-- Without items there is nothing to see. -/
theorem visits_of_noItem {vs : List Visit} (h : ∀ v, Visit.item v ∉ vs) (o : Outcome) :
    (visits vs o).items = o.items ∧ (visits vs o).table = o.table := by
  induction vs generalizing o with
  | nil => exact ⟨rfl, rfl⟩
  | cons x vs ih =>
    cases x with
    | stop => exact ⟨rfl, rfl⟩
    | item v => exact absurd List.mem_cons_self (h v)

/-- Visits that do not end the script are assignments. -/
theorem visits_eq_assign {vs : List Visit} (h : NoneExits vs) {o : Outcome}
    (hrun : o.exited = false) :
    visits vs o = ⟨assign o.items (vs.filterMap Visit.itemPair),
      assign o.table (vs.filterMap Visit.tablePair), false⟩ := by
  induction vs generalizing o with
  | nil => rw [visits, ← hrun]; rfl
  | cons x vs ih =>
    obtain ⟨v, rfl, hv⟩ := h x List.mem_cons_self
    have hexit : (o.visit (.item v)).exited = false := hv
    have hitems : assign o.items ((Visit.item v :: vs).filterMap Visit.itemPair) =
        assign (o.visit (.item v)).items (vs.filterMap Visit.itemPair) := rfl
    have htable : assign o.table ((Visit.item v :: vs).filterMap Visit.tablePair) =
        assign (o.visit (.item v)).table (vs.filterMap Visit.tablePair) := by
      cases hasked : v.run.asked with
      | none =>
        rw [List.filterMap_cons_none (by simp [Visit.tablePair, hasked])]
        simp only [visit, withRun, hasked]
      | some asked =>
        rw [List.filterMap_cons_some (b := (v.resource.code, asked))
          (by simp [Visit.tablePair, hasked]), visit, withRun_table hasked]
        rfl
    rw [visits, hexit, if_neg Bool.false_ne_true, hitems, htable]
    exact ih (fun x hx => h x (List.mem_cons_of_mem _ hx)) hexit

/-- A failing item that comes first is all there is. -/
theorem visits_failing {v : ItemVisit} (hfails : v.Fails)
    (hdefault : ∀ attr value, some (attr, value) ∈ v.stores → attr.IsDefault value)
    (vs : List Visit) :
    (visits (.item v :: vs) .start).items =
        Function.update Outcome.start.items v.path (some (v.withSettings ItemRun.fresh.settings)) ∧
      (visits (.item v :: vs) .start).table = Outcome.start.table := by
  have hexit : (Outcome.start.visit (.item v)).exited = true :=
    ItemRun.exited_of_none_mem hfails .fresh
  obtain ⟨hsettings, hasked⟩ :=
    ItemRun.stores_failing hfails hdefault (r := .fresh) rfl rfl (Or.inl rfl)
  have hrun : v.run = ItemRun.fresh.stores v.stores := rfl
  rw [visits, hexit, if_pos rfl, visit, withRun, hrun, hsettings]
  refine ⟨rfl, ?_⟩
  rcases hasked with hasked | hasked
  · simp only [hasked]
  · simp only [hasked]
    exact Function.update_eq_self _ _

end Outcome

/-- An item whose stores are reordered. -/
theorem ItemVisit.Numbers.run_perm {v : ItemVisit} {value : CfgAttr → U64} (h : v.Numbers value)
    (hsettles : v.Settles) {stores : List (Option (CfgAttr × U64))} (hperm : v.stores.Perm stores) :
    (v.withStores stores).run = v.run := by
  have h' : (v.withStores stores).Numbers value := hperm.symm.trans h
  rw [h.run_eq hsettles, h'.run_eq (h'.settles_iff.mpr (h.settles_iff.mp hsettles))]

section Irrelevant

variable {sh : Shell} {policyData : List DictEntry} {ws : List Visit}

/-- Without items. -/
theorem OrderFree.stopped (h : OrderFree (visitsOf sh policyData))
    (hsame : SameVisits (visitsOf sh policyData) ws) (hstop : .stop ∈ visitsOf sh policyData) :
    (Outcome.visits ws .start).items = Outcome.start.items ∧
      (Outcome.visits ws .start).table = Outcome.start.table := by
  refine Outcome.visits_of_noItem (fun w hw => ?_) .start
  obtain ⟨v, hv, hvw⟩ := hsame.right _ hw
  cases hvw with
  | item v => exact h.stops hstop v hv

/-- With an item that fails. -/
theorem OrderFree.failed (h : OrderFree (visitsOf sh policyData))
    (hdocument : IsPolicyDocument policyData) (hsame : SameVisits (visitsOf sh policyData) ws)
    (hstop : .stop ∉ visitsOf sh policyData) {v : ItemVisit}
    (hv : .item v ∈ visitsOf sh policyData) (hfails : v.Fails) :
    (Outcome.visits ws .start).items =
        Function.update Outcome.start.items v.path (some (v.withSettings ItemRun.fresh.settings)) ∧
      (Outcome.visits ws .start).table = Outcome.start.table := by
  cases ws with
  | nil =>
    obtain ⟨w, hw, -⟩ := hsame.left _ hv
    cases hw
  | cons w ws =>
    obtain ⟨u, hu, huw⟩ := hsame.right w List.mem_cons_self
    cases huw with
    | stop => exact absurd hu hstop
    | @item u stores hperm =>
      obtain rfl := hdocument.eq_of_path hv hu (h.alone v u hv hu hfails)
      exact Outcome.visits_failing (v := (u.withStores stores)) (hperm.mem_iff.mp hfails)
        (fun attr value hmem => (h.settles u hu).failing hfails attr value
          (hperm.mem_iff.mpr hmem)) ws

/-- Items whose stores are all of numbers. -/
structure AllSettle (vs : List Visit) : Prop where
  stop : .stop ∉ vs
  numbers : ∀ v, .item v ∈ vs → ∃ value, v.Numbers value
  settles : ∀ v, .item v ∈ vs → v.Settles

/-- What such a visit leaves does not depend on the order of the stores. -/
theorem AllSettle.same {vs : List Visit} (h : AllSettle vs) {x y : Visit} (hx : x ∈ vs)
    (hxy : x.Same y) :
    x.itemPair = y.itemPair ∧ x.tablePair = y.tablePair ∧
      ∃ w, y = .item w ∧ w.run.exited = false := by
  cases hxy with
  | stop => exact absurd hx h.stop
  | @item v stores hperm =>
    obtain ⟨value, hvalue⟩ := h.numbers v hx
    have hrun := hvalue.run_perm (h.settles v hx) hperm
    refine ⟨?_, ?_, _, rfl, ?_⟩
    · simp only [Visit.itemPair, hrun]
      rfl
    · simp only [Visit.tablePair, hrun]
      rfl
    · rw [hrun, hvalue.run_eq (h.settles v hx)]

/-- The same visits leave the same. -/
theorem mem_filterMap_iff {α : Type*} {f : Visit → Option α} {vs ws : List Visit}
    (hsame : SameVisits vs ws) (hf : ∀ x ∈ vs, ∀ y, x.Same y → f x = f y) (a : α) :
    a ∈ vs.filterMap f ↔ a ∈ ws.filterMap f := by
  rw [List.mem_filterMap, List.mem_filterMap]
  constructor
  · rintro ⟨x, hx, ha⟩
    obtain ⟨y, hy, hxy⟩ := hsame.left x hx
    exact ⟨y, hy, hf x hx y hxy ▸ ha⟩
  · rintro ⟨y, hy, ha⟩
    obtain ⟨x, hx, hxy⟩ := hsame.right y hy
    exact ⟨x, hx, (hf x hx y hxy).trans ha⟩

theorem AllSettle.noneExits {vs : List Visit} (h : AllSettle vs) (hsame : SameVisits vs ws) :
    NoneExits ws := by
  intro y hy
  obtain ⟨x, hx, hxy⟩ := hsame.right y hy
  exact (h.same hx hxy).2.2

/-- Without failing items. -/
theorem OrderFree.settled (h : OrderFree (visitsOf sh policyData))
    (hdocument : IsPolicyDocument policyData) (hsame : SameVisits (visitsOf sh policyData) ws)
    (hall : AllSettle (visitsOf sh policyData)) :
    Outcome.visits ws .start = Outcome.visits (visitsOf sh policyData) .start := by
  have hitems : OneValue ((visitsOf sh policyData).filterMap Visit.itemPair) := by
    intro p item item' hitem hitem'
    obtain ⟨x, hx, hxp⟩ := List.mem_filterMap.mp hitem
    obtain ⟨y, hy, hyp⟩ := List.mem_filterMap.mp hitem'
    cases x with
    | stop => cases hxp
    | item v =>
      cases y with
      | stop => cases hyp
      | item w =>
        obtain ⟨rfl, rfl⟩ := Prod.mk.inj (Option.some_inj.mp hxp)
        obtain ⟨hpath, rfl⟩ := Prod.mk.inj (Option.some_inj.mp hyp)
        rw [hdocument.eq_of_path hx hy hpath]
  have htable : OneValue ((visitsOf sh policyData).filterMap Visit.tablePair) := by
    intro code asked asked' hasked hasked'
    obtain ⟨x, hx, hxc⟩ := List.mem_filterMap.mp hasked
    obtain ⟨y, hy, hyc⟩ := List.mem_filterMap.mp hasked'
    cases x with
    | stop => cases hxc
    | item v =>
      cases y with
      | stop => cases hyc
      | item w =>
        obtain ⟨value, hvalue⟩ := hall.numbers v hx
        obtain ⟨value', hvalue'⟩ := hall.numbers w hy
        rw [Visit.tablePair, hvalue.run_eq (hall.settles v hx)] at hxc
        rw [Visit.tablePair, hvalue'.run_eq (hall.settles w hy)] at hyc
        obtain ⟨rfl, rfl⟩ := Prod.mk.inj (Option.some_inj.mp hxc)
        obtain ⟨hcode, rfl⟩ := Prod.mk.inj (Option.some_inj.mp hyc)
        have hagree := h.agree v w hx hy (ResourceId.code_injective hcode).symm
        rw [hvalue.storesDefault_iff, hvalue'.storesDefault_iff] at hagree
        have hzero : value .enable ≠ 0 ↔ value' .enable ≠ 0 := not_congr hagree
        simp only [hzero]
  rw [Outcome.visits_eq_assign (hall.noneExits hsame) rfl,
    Outcome.visits_eq_assign (hall.noneExits (.refl _)) rfl,
    assign_congr hitems (mem_filterMap_iff hsame fun x hx y hxy => (hall.same hx hxy).1),
    assign_congr htable (mem_filterMap_iff hsame fun x hx y hxy => (hall.same hx hxy).2.1)]

/-- The visits in any order leave the same. -/
theorem OrderFree.visits_eq (h : OrderFree (visitsOf sh policyData))
    (hdocument : IsPolicyDocument policyData) (hsame : SameVisits (visitsOf sh policyData) ws) :
    (Outcome.visits ws .start).items = (Outcome.visits (visitsOf sh policyData) .start).items ∧
      (Outcome.visits ws .start).table =
        (Outcome.visits (visitsOf sh policyData) .start).table := by
  by_cases hstop : .stop ∈ visitsOf sh policyData
  · obtain ⟨hitems, htable⟩ := h.stopped hsame hstop
    obtain ⟨hitems', htable'⟩ := h.stopped (.refl _) hstop
    exact ⟨hitems.trans hitems'.symm, htable.trans htable'.symm⟩
  by_cases hfails : ∃ v, .item v ∈ visitsOf sh policyData ∧ v.Fails
  · obtain ⟨v, hv, hfails⟩ := hfails
    obtain ⟨hitems, htable⟩ := h.failed hdocument hsame hstop hv hfails
    obtain ⟨hitems', htable'⟩ := h.failed hdocument (.refl _) hstop hv hfails
    exact ⟨hitems.trans hitems'.symm, htable.trans htable'.symm⟩
  · have hall : AllSettle (visitsOf sh policyData) :=
      ⟨hstop, fun v hv => hdocument.exists_numbers hv fun hv' => hfails ⟨v, hv, hv'⟩, h.settles⟩
    rw [h.settled hdocument hsame hall]
    exact ⟨rfl, rfl⟩

theorem sameOutcome_iff {s s' : ScriptState} :
    SameOutcome s s' ↔ s.outcome.items = s'.outcome.items ∧ s.outcome.table = s'.outcome.table :=
  and_congr_left fun _ => ⟨fun h => funext h, fun h p => congrFun h p⟩

/-- Reordered documents leave the same, if their visits do. -/
theorem sameOutcome_iff_visits (hdocument : IsPolicyDocument policyData)
    {policyData₁ policyData₂ : List DictEntry}
    (hr₁ : Reordered (.dict policyData) (.dict policyData₁))
    (hr₂ : Reordered (.dict policyData) (.dict policyData₂)) :
    SameOutcome (applyPolicy sh policyData₁) (applyPolicy sh policyData₂) ↔
      (Outcome.visits (visitsOf sh policyData₁) .start).items =
          (Outcome.visits (visitsOf sh policyData₂) .start).items ∧
        (Outcome.visits (visitsOf sh policyData₁) .start).table =
          (Outcome.visits (visitsOf sh policyData₂) .start).table := by
  rw [sameOutcome_iff, outcome_applyPolicy sh (hdocument.reordered hr₁),
    outcome_applyPolicy sh (hdocument.reordered hr₂)]

/-- **Where the order does not matter**, every reordering comes to the same. -/
theorem OrderFree.keyOrderIrrelevant (h : OrderFree (visitsOf sh policyData))
    (hdocument : IsPolicyDocument policyData) : KeyOrderIrrelevant sh policyData := by
  intro policyData₁ policyData₂ hr₁ hr₂
  obtain ⟨hitems₁, htable₁⟩ := h.visits_eq hdocument (sameVisits_of_reordered sh hr₁)
  obtain ⟨hitems₂, htable₂⟩ := h.visits_eq hdocument (sameVisits_of_reordered sh hr₂)
  rw [sameOutcome_iff_visits hdocument hr₁ hr₂]
  exact ⟨hitems₁.trans hitems₂.symm, htable₁.trans htable₂.symm⟩

end Irrelevant

end IkgtUsage
