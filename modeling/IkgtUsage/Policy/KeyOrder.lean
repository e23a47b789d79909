import IkgtUsage.Policy.OrderFree

/-!
# The documents whose key order does not matter

`keyOrderIrrelevant_iff`: applying a policy document leaves the same in all orders of its keys if
and only if its visits are `OrderFree`. Where they are not, two orders that differ are given: the
visit in question comes first, or last with its stores in one order or another. `policy.json` is not
such a document (`policyJson_depends`).
-/

namespace IkgtUsage

open Lib

/-! ## Chosen orders -/

namespace Outcome

/-- An item that has been made stays. -/
theorem visits_items_ne_none {o : Outcome} {p : Path} (h : o.items p ≠ none) (vs : List Visit) :
    (visits vs o).items p ≠ none := by
  induction vs generalizing o with
  | nil => exact h
  | cons x vs ih =>
    have hvisit : (o.visit x).items p ≠ none := by
      cases x with
      | stop => exact h
      | item v =>
        by_cases hp : p = v.path
        · rw [visit, hp, withRun_items_self]
          exact Option.some_ne_none _
        · rwa [visit, withRun_items_of_ne hp]
    rw [visits]
    by_cases hexit : (o.visit x).exited = true
    · rwa [if_pos hexit]
    · rw [if_neg hexit]
      exact ih hvisit

/-- The first item is there. -/
theorem visits_first_ne_none (v : ItemVisit) (vs : List Visit) (o : Outcome) :
    (visits (.item v :: vs) o).items v.path ≠ none := by
  have hvisit : (o.visit (.item v)).items v.path ≠ none := by
    rw [visit, withRun_items_self]
    exact Option.some_ne_none _
  rw [visits]
  by_cases hexit : (o.visit (.item v)).exited = true
  · rwa [if_pos hexit]
  · rw [if_neg hexit]
    exact visits_items_ne_none hvisit vs

/-- After a failing item nothing is visited. -/
theorem visits_fails {v : ItemVisit} (hfails : v.Fails) (vs : List Visit) (o : Outcome) :
    visits (.item v :: vs) o = o.withRun v v.run := by
  have hexit : (o.visit (.item v)).exited = true := ItemRun.exited_of_none_mem hfails .fresh
  rw [visits, if_pos hexit]
  rfl

/-- The last visit, after visits that do not end the script. -/
theorem visits_last {vs : List Visit} (h : NoneExits vs) (v : ItemVisit) :
    ∃ o : Outcome, visits (vs ++ [.item v]) .start = o.withRun v v.run := by
  refine ⟨visits vs .start, ?_⟩
  rw [visits_append _ rfl, visits_eq_assign h rfl, if_neg Bool.false_ne_true, visits_singleton]
  rfl

end Outcome

/-- An order in which no store of an item fails. -/
theorem run_calm {v : ItemVisit} {write stickyValue enable : U64}
    (h : v.stores = [some (.write, write), some (.stickyValue, stickyValue),
      some (.enable, enable)]) :
    v.run = ⟨⟨enable ≠ 0, isSticky (write.truncate 8), write.truncate 8, stickyValue⟩,
      some (if enable ≠ 0 then some ⟨(write.truncate 8 : BitVec 8).zeroExtend 32, stickyValue⟩
        else none), false⟩ := by
  unfold ItemVisit.run
  simp [h, ItemRun.stores, ItemRun.store, ItemRun.fresh]

/-- The stores of an item with `enable` first. -/
theorem run_enable_first {v : ItemVisit} {write stickyValue enable : U64}
    (h : v.stores = [some (.enable, enable), some (.write, write),
      some (.stickyValue, stickyValue)]) :
    v.run = ⟨⟨enable ≠ 0, false, write.truncate 8, stickyValue⟩,
      some (if enable ≠ 0 then some ⟨0, 0⟩ else none), false⟩ := by
  unfold ItemVisit.run
  simp [h, ItemRun.stores, ItemRun.store, ItemRun.fresh, ItemRun.isSticky_zero]

/-- A failing item, up to the store that fails. -/
theorem run_fails_first {v : ItemVisit} {rest : List (Option (CfgAttr × U64))}
    (h : v.stores = none :: rest) : v.run.settings = ItemRun.fresh.settings := by
  unfold ItemVisit.run
  rw [h]
  rfl

theorem run_fails_second {v : ItemVisit} {attr : CfgAttr} {value : U64}
    {rest : List (Option (CfgAttr × U64))} (h : v.stores = some (attr, value) :: none :: rest) :
    v.run.settings = (ItemRun.fresh.store (some (attr, value))).settings := by
  unfold ItemVisit.run
  rw [h]
  cases attr <;> rfl

/-- A store shows, unless it is of what the attribute has. -/
theorem isDefault_of_store {attr : CfgAttr} {value : U64}
    (h : (ItemRun.fresh.store (some (attr, value))).settings = ItemRun.fresh.settings) :
    attr.IsDefault value := by
  cases attr with
  | write => exact congrArg Settings.write h
  | stickyValue => exact congrArg Settings.stickyValue h
  | enable =>
    have henable : decide (value ≠ 0) = false := congrArg Settings.enable h
    have hzero : value = 0 := by simpa using henable
    exact hzero

theorem ItemVisit.withSettings_injective (v : ItemVisit) : Function.Injective v.withSettings := by
  rintro ⟨enable, locked, write, stickyValue⟩ ⟨enable', locked', write', stickyValue'⟩ h
  obtain ⟨-, hcfg⟩ := Item.mk.inj h
  obtain ⟨-, rfl, rfl, rfl, rfl⟩ := Cfg.mk.inj (eq_of_heq hcfg)
  rfl

/-- The item shows its settings. -/
theorem Outcome.settings_eq {o₁ o₂ : Outcome} {v : ItemVisit}
    {stores₁ stores₂ : List (Option (CfgAttr × U64))} {r₁ r₂ : ItemRun}
    (h : (o₁.withRun (v.withStores stores₁) r₁).items =
      (o₂.withRun (v.withStores stores₂) r₂).items) : r₁.settings = r₂.settings := by
  have hself₁ := o₁.withRun_items_self (v.withStores stores₁) r₁
  have hself₂ := o₂.withRun_items_self (v.withStores stores₂) r₂
  have hpath := congrFun h v.path
  exact v.withSettings_injective (Option.some_inj.mp (hself₁.symm.trans (hpath.trans hself₂)))

/-- The map shows what was asked for last. -/
theorem Outcome.asked_eq {o₁ o₂ : Outcome} {v₁ v₂ : ItemVisit} {r₁ r₂ : ItemRun}
    {asked₁ asked₂ : Option Setting} (h : (o₁.withRun v₁ r₁).table = (o₂.withRun v₂ r₂).table)
    (hresource : v₁.resource = v₂.resource) (h₁ : r₁.asked = some asked₁)
    (h₂ : r₂.asked = some asked₂) : asked₁ = asked₂ := by
  have hcode := congrFun h v₁.resource.code
  rwa [withRun_table h₁, withRun_table h₂, Function.update_self, hresource,
    Function.update_self] at hcode

section Necessary

variable {sh : Shell} {policyData : List DictEntry}

/-- Two orders of the visits that a document can have. -/
theorem KeyOrderIrrelevant.visits_eq (h : KeyOrderIrrelevant sh policyData)
    (hdocument : IsPolicyDocument policyData) {policyData₁ policyData₂ : List DictEntry}
    (hr₁ : Reordered (.dict policyData) (.dict policyData₁))
    (hr₂ : Reordered (.dict policyData) (.dict policyData₂)) {vs₁ vs₂ : List Visit}
    (hvs₁ : visitsOf sh policyData₁ = vs₁) (hvs₂ : visitsOf sh policyData₂ = vs₂) :
    (Outcome.visits vs₁ .start).items = (Outcome.visits vs₂ .start).items ∧
      (Outcome.visits vs₁ .start).table = (Outcome.visits vs₂ .start).table := by
  subst hvs₁ hvs₂
  exact (sameOutcome_iff_visits hdocument hr₁ hr₂).mp (h policyData₁ policyData₂ hr₁ hr₂)

/-- A command that fails comes first, or an item. -/
theorem KeyOrderIrrelevant.stops (h : KeyOrderIrrelevant sh policyData)
    (hdocument : IsPolicyDocument policyData) (hstop : .stop ∈ visitsOf sh policyData)
    (v : ItemVisit) : .item v ∉ visitsOf sh policyData := by
  intro hv
  obtain ⟨policyData₁, vs₁, hr₁, hvs₁⟩ := exists_first_visit sh hstop .stop
  obtain ⟨policyData₂, vs₂, hr₂, hvs₂⟩ := exists_first_visit sh hv (.refl _)
  have hitems := (h.visits_eq hdocument hr₁ hr₂ hvs₁ hvs₂).1
  exact Outcome.visits_first_ne_none v vs₂ .start (congrFun hitems v.path).symm

/-- A failing item comes first, or another item. -/
theorem KeyOrderIrrelevant.alone (h : KeyOrderIrrelevant sh policyData)
    (hdocument : IsPolicyDocument policyData) {v w : ItemVisit}
    (hv : .item v ∈ visitsOf sh policyData) (hw : .item w ∈ visitsOf sh policyData)
    (hfails : v.Fails) : w.path = v.path := by
  by_contra hpath
  obtain ⟨policyData₁, vs₁, hr₁, hvs₁⟩ := exists_first_visit sh hv (.refl _)
  obtain ⟨policyData₂, vs₂, hr₂, hvs₂⟩ := exists_first_visit sh hw (.refl _)
  have hitems := congrFun (h.visits_eq hdocument hr₁ hr₂ hvs₁ hvs₂).1 w.path
  rw [Outcome.visits_fails hfails, Outcome.withRun_items_of_ne hpath] at hitems
  exact Outcome.visits_first_ne_none w vs₂ .start hitems.symm

/-- Two orders of the stores of a failing item. -/
theorem KeyOrderIrrelevant.failing_run (h : KeyOrderIrrelevant sh policyData)
    (hdocument : IsPolicyDocument policyData) {v : ItemVisit}
    (hv : .item v ∈ visitsOf sh policyData) (hfails : v.Fails)
    {stores₁ stores₂ : List (Option (CfgAttr × U64))} (hperm₁ : v.stores.Perm stores₁)
    (hperm₂ : v.stores.Perm stores₂) :
    (v.withStores stores₁).run.settings =
      (v.withStores stores₂).run.settings := by
  have hfails₁ : (v.withStores stores₁).Fails := hperm₁.mem_iff.mp hfails
  have hfails₂ : (v.withStores stores₂).Fails := hperm₂.mem_iff.mp hfails
  obtain ⟨policyData₁, vs₁, hr₁, hvs₁⟩ := exists_first_visit sh hv (.item v hperm₁)
  obtain ⟨policyData₂, vs₂, hr₂, hvs₂⟩ := exists_first_visit sh hv (.item v hperm₂)
  have hitems := (h.visits_eq hdocument hr₁ hr₂ hvs₁ hvs₂).1
  rw [Outcome.visits_fails hfails₁, Outcome.visits_fails hfails₂] at hitems
  exact Outcome.settings_eq hitems

/-- The store that fails comes first, or after another one. -/
theorem KeyOrderIrrelevant.failing (h : KeyOrderIrrelevant sh policyData)
    (hdocument : IsPolicyDocument policyData) {v : ItemVisit}
    (hv : .item v ∈ visitsOf sh policyData) (hfails : v.Fails) (attr : CfgAttr) (value : U64)
    (hstore : some (attr, value) ∈ v.stores) : attr.IsDefault value := by
  have hnodup : [none, some (attr, value)].Nodup := by simp
  obtain ⟨rest, hrest⟩ := exists_perm_append hnodup
    (List.cons_subset.mpr ⟨hfails, List.cons_subset.mpr ⟨hstore, List.nil_subset _⟩⟩)
  have hswap := hrest.trans (.swap (some (attr, value)) none rest)
  have hrun := h.failing_run hdocument hv hfails hrest hswap
  rw [run_fails_first rfl, run_fails_second rfl] at hrun
  exact isDefault_of_store hrun.symm

/-- The item comes last, after items none of whose stores fails. -/
theorem exists_last_run (hdocument : IsPolicyDocument policyData)
    (hstop : .stop ∉ visitsOf sh policyData)
    (hnumbers : ∀ u, .item u ∈ visitsOf sh policyData → ∃ value, u.Numbers value) {v : ItemVisit}
    (hv : .item v ∈ visitsOf sh policyData) {stores : List (Option (CfgAttr × U64))}
    (hperm : v.stores.Perm stores) :
    ∃ policyData' vs, ∃ o : Outcome, Reordered (.dict policyData) (.dict policyData') ∧
      visitsOf sh policyData' = vs ∧
      Outcome.visits vs .start =
        o.withRun (v.withStores stores) (v.withStores stores).run := by
  obtain ⟨policyData', vs, hr, hvs, hcalm⟩ := exists_last_visit sh hdocument hv (.item v hperm)
  have hsame := sameVisits_of_reordered sh hr
  have hnone : NoneExits vs := by
    intro x hx
    obtain ⟨y, hy, hyx⟩ := hsame.right x (hvs ▸ List.mem_append_left _ hx)
    cases hyx with
    | stop => exact absurd hy hstop
    | @item u stores' hperm' =>
      obtain ⟨value, hvalue⟩ := hnumbers u hy
      have hvalue' : ({ u with stores := stores' } : ItemVisit).Numbers value :=
        hperm'.symm.trans hvalue
      obtain ⟨write, stickyValue, enable, hstores⟩ := hcalm _ hx hvalue'.not_fails
      exact ⟨_, rfl, by rw [run_calm hstores]⟩
  obtain ⟨o, ho⟩ := Outcome.visits_last hnone (v.withStores stores)
  exact ⟨policyData', _, o, hr, hvs, ho⟩

/-- Where one item stores numbers only, all do. -/
theorem KeyOrderIrrelevant.numbers (h : KeyOrderIrrelevant sh policyData)
    (hdocument : IsPolicyDocument policyData) {v : ItemVisit}
    (hv : .item v ∈ visitsOf sh policyData) (hfails : ¬ v.Fails) (u : ItemVisit)
    (hu : .item u ∈ visitsOf sh policyData) : ∃ value, u.Numbers value := by
  refine hdocument.exists_numbers hu fun hfails' => hfails ?_
  rwa [hdocument.eq_of_path hu hv (h.alone hdocument hu hv hfails')]

/-- `enable` is stored last, or first. -/
theorem KeyOrderIrrelevant.settled (h : KeyOrderIrrelevant sh policyData)
    (hdocument : IsPolicyDocument policyData) {v : ItemVisit}
    (hv : .item v ∈ visitsOf sh policyData) (hfails : ¬ v.Fails) : v.Settles := by
  have hstop : .stop ∉ visitsOf sh policyData := fun hstop => h.stops hdocument hstop v hv
  have hnumbers := h.numbers hdocument hv hfails
  obtain ⟨value, hvalue⟩ := hnumbers v hv
  have hfirst : v.stores.Perm [some (.enable, value .enable), some (.write, value .write),
      some (.stickyValue, value .stickyValue)] :=
    hvalue.trans (List.perm_append_singleton _ [_, _])
  obtain ⟨policyData₁, vs₁, o₁, hr₁, hvs₁, ho₁⟩ :=
    exists_last_run hdocument hstop hnumbers hv hvalue
  obtain ⟨policyData₂, vs₂, o₂, hr₂, hvs₂, ho₂⟩ :=
    exists_last_run hdocument hstop hnumbers hv hfirst
  obtain ⟨hitems, htable⟩ := h.visits_eq hdocument hr₁ hr₂ hvs₁ hvs₂
  rw [ho₁, ho₂, run_calm rfl, run_enable_first rfl] at hitems htable
  have hlocked : isSticky ((value .write).truncate 8) = false :=
    congrArg Settings.locked (Outcome.settings_eq hitems)
  have hasked := Outcome.asked_eq htable rfl rfl rfl
  refine hvalue.settles_iff.mpr ?_
  by_cases hzero : value .enable = 0
  · exact Or.inl ⟨hzero, Bool.eq_false_iff.mp hlocked⟩
  · rw [if_pos hzero, if_pos hzero, Option.some_inj, Setting.mk.injEq] at hasked
    have hwrite := congrArg (BitVec.truncate 8) hasked.1
    exact Or.inr ⟨by simpa using hwrite, hasked.2⟩

/-- One item of the resource comes last, or the other. -/
theorem KeyOrderIrrelevant.agree (h : KeyOrderIrrelevant sh policyData)
    (hdocument : IsPolicyDocument policyData) {v w : ItemVisit}
    (hv : .item v ∈ visitsOf sh policyData) (hw : .item w ∈ visitsOf sh policyData)
    (hresource : v.resource = w.resource) :
    v.StoresDefault .enable ↔ w.StoresDefault .enable := by
  by_cases hpath : w.path = v.path
  · rw [hdocument.eq_of_path hv hw hpath]
  have hfails : ¬ v.Fails := fun hfails => hpath (h.alone hdocument hv hw hfails)
  have hstop : .stop ∉ visitsOf sh policyData := fun hstop => h.stops hdocument hstop v hv
  have hnumbers := h.numbers hdocument hv hfails
  obtain ⟨value, hvalue⟩ := hnumbers v hv
  obtain ⟨value', hvalue'⟩ := hnumbers w hw
  obtain ⟨policyData₁, vs₁, o₁, hr₁, hvs₁, ho₁⟩ :=
    exists_last_run hdocument hstop hnumbers hv hvalue
  obtain ⟨policyData₂, vs₂, o₂, hr₂, hvs₂, ho₂⟩ :=
    exists_last_run hdocument hstop hnumbers hw hvalue'
  have htable := (h.visits_eq hdocument hr₁ hr₂ hvs₁ hvs₂).2
  rw [ho₁, ho₂, run_calm rfl, run_calm rfl] at htable
  have hasked := Outcome.asked_eq htable hresource rfl rfl
  rw [hvalue.storesDefault_iff, hvalue'.storesDefault_iff]
  change value .enable = 0 ↔ value' .enable = 0
  have hsome := congrArg Option.isSome hasked
  rw [Bool.eq_iff_iff, Option.isSome_ite, Option.isSome_ite] at hsome
  exact not_iff_not.mp hsome

end Necessary

/-- **The documents whose key order does not matter.** -/
theorem keyOrderIrrelevant_iff (sh : Shell) {policyData : List DictEntry}
    (hdocument : IsPolicyDocument policyData) :
    KeyOrderIrrelevant sh policyData ↔ OrderFree (visitsOf sh policyData) := by
  constructor
  · intro h
    exact ⟨fun hstop v => h.stops hdocument hstop v,
      fun v w hv hw hfails => h.alone hdocument hv hw hfails,
      fun v hv => ⟨fun hfails => h.failing hdocument hv hfails,
        fun hfails => (h.settled hdocument hv hfails).settled hfails⟩,
      fun v w hv hw => h.agree hdocument hv hw⟩
  · intro h
    exact h.keyOrderIrrelevant hdocument

/-! ## `policy.json` -/

theorem isItemPolicy_itemPolicy (enable write stickyValue : String) :
    IsItemPolicy [(CfgAttr.enable.name, .text enable.toList),
      (CfgAttr.write.name, .text write.toList),
      (CfgAttr.stickyValue.name, .text stickyValue.toList)] where
  keys := show [CfgAttr.enable.name, CfgAttr.write.name, CfgAttr.stickyValue.name].Nodup by decide
  attrs attr := by
    cases attr with
    | enable => exact ⟨_, List.mem_cons_self⟩
    | write => exact ⟨_, List.mem_cons_of_mem _ List.mem_cons_self⟩
    | stickyValue =>
      exact ⟨_, List.mem_cons_of_mem _ (List.mem_cons_of_mem _ List.mem_cons_self)⟩

/-- A section whose items are made by `itemPolicy`. -/
theorem isSectionPolicy_of_itemPolicy {entries : List DictEntry}
    (hkeys : (entries.map Prod.fst).Nodup)
    (hitems : ∀ entry ∈ entries, ∃ enable write stickyValue,
      entry.2 = itemPolicy enable write stickyValue) : IsSectionPolicy entries where
  keys := hkeys
  items name item hmem := by
    obtain ⟨enable, write, stickyValue, hitem⟩ := hitems _ hmem
    obtain rfl := PolicyData.dict.inj hitem
    exact isItemPolicy_itemPolicy enable write stickyValue

theorem isPolicyDocument_policyJson : IsPolicyDocument policyJson where
  plain := by decide
  keys := show ["cr0".toList, "cr4".toList, "msr".toList, "log".toList].Nodup by decide
  sections key entries g hmem hgroup := by
    simp only [policyJson, List.mem_cons, List.not_mem_nil, or_false] at hmem
    rcases hmem with h | h | h | h
    · obtain ⟨-, h⟩ := Prod.mk.inj h
      obtain rfl := PolicyData.dict.inj h
      refine isSectionPolicy_of_itemPolicy (show ["pg".toList, "wp".toList].Nodup by decide) ?_
      exact List.forall_mem_cons.mpr
        ⟨⟨_, _, _, rfl⟩, List.forall_mem_singleton.mpr ⟨_, _, _, rfl⟩⟩
    · obtain ⟨-, h⟩ := Prod.mk.inj h
      obtain rfl := PolicyData.dict.inj h
      refine isSectionPolicy_of_itemPolicy (show ["pae".toList].Nodup by decide) ?_
      exact List.forall_mem_singleton.mpr ⟨_, _, _, rfl⟩
    · obtain ⟨-, h⟩ := Prod.mk.inj h
      obtain rfl := PolicyData.dict.inj h
      refine isSectionPolicy_of_itemPolicy (show ["efer".toList].Nodup by decide) ?_
      exact List.forall_mem_singleton.mpr ⟨_, _, _, rfl⟩
    · have hlog : groupChildrenMakeGroup "log".toList = some .log := by decide
      rw [(Prod.mk.inj h).1, hlog] at hgroup
      cases hgroup

/-- The efer item of `policy.json` with `enable` last. -/
def policyJsonEnableLast : List DictEntry :=
  [("cr0".toList, .dict [("pg".toList, itemPolicy "1" "3" "0"),
      ("wp".toList, itemPolicy "1" "1" "0")]),
    ("cr4".toList, .dict [("pae".toList, itemPolicy "1" "3" "0")]),
    ("msr".toList, .dict [("efer".toList, .dict [(CfgAttr.write.name, .text "3".toList),
      (CfgAttr.stickyValue.name, .text "0".toList), (CfgAttr.enable.name, .text "1".toList)])]),
    ("log".toList, .dict [("log.txt".toList, .text "/configfs/ikgt_agent/log/log.txt".toList)])]

theorem keyOrderIrrelevant_iff_policyJson :
    IsPolicyDocument policyJson ∧
      (KeyOrderIrrelevant .plain policyJson ↔ OrderFree (visitsOf .plain policyJson)) :=
  ⟨isPolicyDocument_policyJson, keyOrderIrrelevant_iff .plain isPolicyDocument_policyJson⟩

/-- **`policy.json` depends on the order.** With `enable` first the handler is asked to log and skip
nothing, and with `enable` last it is asked for what the file says. -/
theorem policyJson_depends :
    IsPolicyDocument policyJson ∧
      Reordered (.dict policyJson) (.dict policyJsonEnableLast) ∧
      (applyPolicy .plain policyJson).sys.table ResourceId.msrEfer.code = some ⟨0, 0⟩ ∧
      (applyPolicy .plain policyJsonEnableLast).sys.table ResourceId.msrEfer.code = some ⟨3, 0⟩ ∧
      ¬ KeyOrderIrrelevant .plain policyJson := by
  have hefer : Reordered (itemPolicy "1" "3" "0") (.dict [(CfgAttr.write.name, .text "3".toList),
      (CfgAttr.stickyValue.name, .text "0".toList), (CfgAttr.enable.name, .text "1".toList)]) :=
    .of_perm (List.perm_append_singleton _ [_, _]).symm
  have hmsr : Reordered (.dict [("efer".toList, itemPolicy "1" "3" "0")]) (.dict [("efer".toList,
      .dict [(CfgAttr.write.name, .text "3".toList), (CfgAttr.stickyValue.name, .text "0".toList),
        (CfgAttr.enable.name, .text "1".toList)])]) :=
    .dict (.refl _) (.cons hefer .nil)
  have hr : Reordered (.dict policyJson) (.dict policyJsonEnableLast) :=
    .dict (.refl _) (.cons (.refl _) (.cons (.refl _) (.cons hmsr (.cons (.refl _) .nil))))
  have hfirst : (applyPolicy .plain policyJson).sys.table ResourceId.msrEfer.code =
      some ⟨0, 0⟩ := by decide +kernel
  have hlast : (applyPolicy .plain policyJsonEnableLast).sys.table ResourceId.msrEfer.code =
      some ⟨3, 0⟩ := by decide +kernel
  refine ⟨isPolicyDocument_policyJson, hr, hfirst, hlast, fun h => ?_⟩
  have htable := (h _ _ (.refl _) hr).2
  rw [htable, hlast] at hfirst
  exact absurd hfirst (by decide)

end IkgtUsage
