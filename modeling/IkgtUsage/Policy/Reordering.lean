import IkgtUsage.Lib.AnyOrder
import IkgtUsage.Policy.Visits

/-!
# The visits of a reordered document

A reordering of a document makes the same visits in some order, with the stores of each item in some
order (`sameVisits_of_reordered`). Not every order of the visits is possible, since a section is
visited as a whole. But every visit can be the first (`exists_first_visit`), and the last one after
items whose stores are in an order in which none fails (`exists_last_visit`).
-/

namespace IkgtUsage

open Lib

/-! ## Reordered dictionaries -/

/-- A key with its value, reordered. -/
def EntryReordered (entry entry' : DictEntry) : Prop :=
  entry.1 = entry'.1 ∧ Reordered entry.2 entry'.2

mutual

theorem Reordered.refl : (data : PolicyData) → Reordered data data
  | .text value => .text value
  | .dict entries => .dict (.refl entries) (EntriesReordered.refl entries)

theorem EntriesReordered.refl : (entries : List DictEntry) → EntriesReordered entries entries
  | [] => .nil
  | (_, value) :: rest => .cons (Reordered.refl value) (EntriesReordered.refl rest)

end

theorem EntryReordered.refl (entry : DictEntry) : EntryReordered entry entry :=
  ⟨rfl, Reordered.refl entry.2⟩

theorem entriesReordered_iff {entries entries' : List DictEntry} :
    EntriesReordered entries entries' ↔ List.Forall₂ EntryReordered entries entries' := by
  constructor
  · intro h
    induction entries generalizing entries' with
    | nil =>
      cases h
      exact .nil
    | cons entry rest ih =>
      cases h with
      | cons hvalue hvalues => exact .cons ⟨rfl, hvalue⟩ (ih hvalues)
  · intro h
    induction h with
    | nil => exact .nil
    | @cons entry entry' rest rest' hentry _ ih =>
      obtain ⟨key, value⟩ := entry
      obtain ⟨key', value'⟩ := entry'
      obtain ⟨rfl, hvalue⟩ := hentry
      exact .cons hvalue ih

theorem Reordered.of_perm {entries entries' : List DictEntry} (h : entries.Perm entries') :
    Reordered (.dict entries) (.dict entries') :=
  .dict h (EntriesReordered.refl entries')

theorem Reordered.eq_text {value : List Char} {data : PolicyData}
    (h : Reordered (.text value) data) : data = .text value := by
  cases h
  rfl

theorem reordered_dict_iff {entries entries' : List DictEntry} :
    Reordered (.dict entries) (.dict entries') ↔
      ∃ mid, entries.Perm mid ∧ List.Forall₂ EntryReordered mid entries' := by
  constructor
  · intro h
    cases h with
    | dict hperm hvalues => exact ⟨_, hperm, entriesReordered_iff.mp hvalues⟩
  · rintro ⟨mid, hperm, hvalues⟩
    exact .dict hperm (entriesReordered_iff.mpr hvalues)

/-- A reordered dictionary has the same keys. -/
theorem Reordered.keys {entries entries' : List DictEntry}
    (h : Reordered (.dict entries) (.dict entries')) :
    (entries.map Prod.fst).Perm (entries'.map Prod.fst) := by
  obtain ⟨mid, hperm, hvalues⟩ := reordered_dict_iff.mp h
  refine (hperm.map Prod.fst).trans (.of_eq ?_)
  clear hperm h
  induction hvalues with
  | nil => rfl
  | cons hentry _ ih => rw [List.map_cons, List.map_cons, hentry.1, ih]

/-- Each entry of a dictionary is in the reordered one. -/
theorem Reordered.exists_entry {entries entries' : List DictEntry}
    (h : Reordered (.dict entries) (.dict entries')) {entry : DictEntry} (hmem : entry ∈ entries) :
    ∃ entry' ∈ entries', EntryReordered entry entry' := by
  obtain ⟨mid, hperm, hvalues⟩ := reordered_dict_iff.mp h
  exact exists_of_forall₂ hvalues (hperm.mem_iff.mp hmem)

/-- Each entry of a reordered dictionary is of the dictionary. -/
theorem Reordered.exists_origin {entries entries' : List DictEntry}
    (h : Reordered (.dict entries) (.dict entries')) {entry' : DictEntry}
    (hmem : entry' ∈ entries') : ∃ entry ∈ entries, EntryReordered entry entry' := by
  obtain ⟨mid, hperm, hvalues⟩ := reordered_dict_iff.mp h
  obtain ⟨entry, hentry, hr⟩ := exists_of_forall₂ hvalues.flip hmem
  exact ⟨entry, hperm.mem_iff.mpr hentry, hr⟩

/-! ## Reordered documents -/

mutual

/-- Plain words stay plain. -/
theorem Reordered.isPlain {data data' : PolicyData} (h : Reordered data data')
    (hplain : data.isPlain = true) : data'.isPlain = true := by
  cases h with
  | text value => exact hplain
  | dict hperm hvalues =>
    rw [PolicyData.isPlain, isPlainEntries_iff] at hplain
    refine EntriesReordered.isPlain hvalues (isPlainEntries_iff.mpr fun entry hentry => ?_)
    exact hplain entry (hperm.mem_iff.mpr hentry)

theorem EntriesReordered.isPlain {entries entries' : List DictEntry}
    (h : EntriesReordered entries entries') (hplain : isPlainEntries entries = true) :
    isPlainEntries entries' = true := by
  cases h with
  | nil => exact hplain
  | cons hvalue hvalues =>
    rw [isPlainEntries, Bool.and_eq_true, Bool.and_eq_true] at hplain ⊢
    exact ⟨⟨hplain.1.1, hvalue.isPlain hplain.1.2⟩, hvalues.isPlain hplain.2⟩

end

theorem IsItemPolicy.reordered {item item' : List DictEntry} (h : IsItemPolicy item)
    (hr : Reordered (.dict item) (.dict item')) : IsItemPolicy item' where
  keys := hr.keys.nodup_iff.mp h.keys
  attrs attr := by
    obtain ⟨value, hmem⟩ := h.attrs attr
    obtain ⟨⟨key, value'⟩, hmem', hkey, hvalue⟩ := hr.exists_entry hmem
    obtain rfl : attr.name = key := hkey
    obtain rfl : value' = .text value := hvalue.eq_text
    exact ⟨value, hmem'⟩

theorem IsSectionPolicy.reordered {entries entries' : List DictEntry} (h : IsSectionPolicy entries)
    (hr : Reordered (.dict entries) (.dict entries')) : IsSectionPolicy entries' where
  keys := hr.keys.nodup_iff.mp h.keys
  items name item' hmem := by
    obtain ⟨⟨key, value⟩, horigin, rfl, hvalue⟩ := hr.exists_origin hmem
    cases id hvalue with
    | dict => exact (h.items _ _ horigin).reordered hvalue

/-- **A reordered policy document** is one. -/
theorem IsPolicyDocument.reordered {policyData policyData' : List DictEntry}
    (h : IsPolicyDocument policyData) (hr : Reordered (.dict policyData) (.dict policyData')) :
    IsPolicyDocument policyData' where
  plain := hr.isPlain h.plain
  keys := hr.keys.nodup_iff.mp h.keys
  sections key entries' g hmem hgroup := by
    obtain ⟨⟨key', value⟩, horigin, rfl, hvalue⟩ := hr.exists_origin hmem
    cases id hvalue with
    | dict => exact (h.sections _ _ g horigin hgroup).reordered hvalue

/-! ## The same visits -/

/-- The item with other stores. -/
abbrev ItemVisit.withStores (v : ItemVisit) (stores : List (Option (CfgAttr × U64))) : ItemVisit :=
  { v with stores := stores }

/-- The stores may be in any order. -/
inductive Visit.Same : Visit → Visit → Prop
  | stop : Same .stop .stop
  | item (v : ItemVisit) {stores : List (Option (CfgAttr × U64))} (h : v.stores.Perm stores) :
      Same (.item v) (.item (v.withStores stores))

theorem Visit.Same.refl : (v : Visit) → v.Same v
  | .stop => .stop
  | .item v => .item v (.refl v.stores)

/-- The visits are the same ones. -/
structure SameVisits (vs ws : List Visit) : Prop where
  left : ∀ v ∈ vs, ∃ w ∈ ws, v.Same w
  right : ∀ w ∈ ws, ∃ v ∈ vs, v.Same w

theorem SameVisits.refl (vs : List Visit) : SameVisits vs vs :=
  ⟨fun v hv => ⟨v, hv, .refl v⟩, fun v hv => ⟨v, hv, .refl v⟩⟩

/-- Reordered dictionaries make the same visits, if their entries do. -/
theorem sameVisits_flatMap {f : DictEntry → List Visit} {entries entries' : List DictEntry}
    (hr : Reordered (.dict entries) (.dict entries'))
    (hsame : ∀ entry entry', EntryReordered entry entry' → SameVisits (f entry) (f entry')) :
    SameVisits (entries.flatMap f) (entries'.flatMap f) := by
  constructor
  · intro v hv
    obtain ⟨entry, hentry, hv⟩ := List.mem_flatMap.mp hv
    obtain ⟨entry', hentry', hr'⟩ := hr.exists_entry hentry
    obtain ⟨w, hw, hvw⟩ := (hsame entry entry' hr').left v hv
    exact ⟨w, List.mem_flatMap.mpr ⟨entry', hentry', hw⟩, hvw⟩
  · intro w hw
    obtain ⟨entry', hentry', hw⟩ := List.mem_flatMap.mp hw
    obtain ⟨entry, hentry, hr'⟩ := hr.exists_origin hentry'
    obtain ⟨v, hv, hvw⟩ := (hsame entry entry' hr').right w hw
    exact ⟨v, List.mem_flatMap.mpr ⟨entry, hentry, hv⟩, hvw⟩

/-- A reordered item stores the same in some order. -/
theorem stores_perm (sh : Shell) {item item' : List DictEntry}
    (hr : Reordered (.dict item) (.dict item')) :
    (item.filterMap (storeOf sh)).Perm (item'.filterMap (storeOf sh)) := by
  obtain ⟨mid, hperm, hvalues⟩ := reordered_dict_iff.mp hr
  refine (hperm.filterMap (storeOf sh)).trans (.of_eq ?_)
  clear hperm hr
  induction hvalues with
  | nil => rfl
  | @cons entry entry' rest rest' hentry _ ih =>
    obtain ⟨key, value⟩ := entry
    obtain ⟨key', value'⟩ := entry'
    obtain ⟨rfl, hvalue⟩ := hentry
    have hstore : storeOf sh (key, value) = storeOf sh (key, value') := by
      cases hvalue with
      | text value => rfl
      | dict => rfl
    rw [List.filterMap_cons, List.filterMap_cons, hstore, ih]

theorem sameVisits_item (sh : Shell) (dir : List Char) (g : CfgGroup) {entry entry' : DictEntry}
    (h : EntryReordered entry entry') :
    SameVisits (itemVisits sh dir g entry) (itemVisits sh dir g entry') := by
  obtain ⟨name, value⟩ := entry
  obtain ⟨name', value'⟩ := entry'
  obtain ⟨rfl, hvalue⟩ := h
  cases id hvalue with
  | text => exact .refl _
  | @dict item _ item' =>
    rw [itemVisits, itemVisits]
    by_cases hname : (g.kind.validAttr name).isSome = true
    · have hsame := Visit.Same.item
        ⟨⟨dir, name⟩, g, ⟨name, hname⟩, item.filterMap (storeOf sh)⟩ (stores_perm sh hvalue)
      rw [dif_pos hname, dif_pos hname]
      constructor
      · intro v hv
        exact ⟨_, List.mem_cons_self, List.mem_singleton.mp hv ▸ hsame⟩
      · intro w hw
        exact ⟨_, List.mem_cons_self, List.mem_singleton.mp hw ▸ hsame⟩
    · rw [dif_neg hname, dif_neg hname]
      exact .refl []

theorem sameVisits_log (sh : Shell) {entry entry' : DictEntry} (h : EntryReordered entry entry') :
    SameVisits (logVisits sh entry) (logVisits sh entry') := by
  obtain ⟨key, value⟩ := entry
  obtain ⟨key', value'⟩ := entry'
  obtain ⟨rfl, hvalue⟩ := h
  cases hvalue with
  | text => exact .refl _
  | dict => exact .refl []

theorem sameVisits_entry (sh : Shell) (dir : List Char) (type : Option GroupType)
    {entry entry' : DictEntry} (h : EntryReordered entry entry') :
    SameVisits (entryVisits sh dir type entry) (entryVisits sh dir type entry') := by
  cases type with
  | none => exact .refl []
  | some type =>
    cases type with
    | log => exact sameVisits_log sh h
    | items g => exact sameVisits_item sh dir g h

theorem sameVisits_section (sh : Shell) {entry entry' : DictEntry}
    (h : EntryReordered entry entry') :
    SameVisits (sectionVisits sh entry) (sectionVisits sh entry') := by
  obtain ⟨key, value⟩ := entry
  obtain ⟨key', value'⟩ := entry'
  obtain ⟨rfl, hvalue⟩ := h
  cases id hvalue with
  | text => exact .refl _
  | dict => exact sameVisits_flatMap hvalue fun _ _ => sameVisits_entry sh key _

/-- **A reordered document** makes the same visits. -/
theorem sameVisits_of_reordered (sh : Shell) {policyData policyData' : List DictEntry}
    (h : Reordered (.dict policyData) (.dict policyData')) :
    SameVisits (visitsOf sh policyData) (visitsOf sh policyData') :=
  sameVisits_flatMap h fun _ _ => sameVisits_section sh

/-! ## The first visit -/

/-- The visit of an entry can be the first one, if it can be the first one of the entry. -/
theorem exists_first {f : DictEntry → List Visit} {entries : List DictEntry} {v w : Visit}
    (hv : v ∈ entries.flatMap f)
    (hfirst : ∀ entry, v ∈ f entry → ∃ entry' ws, EntryReordered entry entry' ∧
      f entry' = w :: ws) :
    ∃ entries' ws, Reordered (.dict entries) (.dict entries') ∧ entries'.flatMap f = w :: ws := by
  obtain ⟨entry, hentry, hv⟩ := List.mem_flatMap.mp hv
  obtain ⟨entry', ws, hr, hw⟩ := hfirst entry hv
  obtain ⟨rest, hperm, -⟩ := exists_perm_of_mem hentry
  refine ⟨entry' :: rest, ws ++ rest.flatMap f,
    reordered_dict_iff.mpr ⟨entry :: rest, hperm, .cons hr ?_⟩, ?_⟩
  · exact entriesReordered_iff.mp (.refl rest)
  · rw [List.flatMap_cons, hw, List.cons_append]

/-- A visit that a text makes. -/
theorem textVisits_of_mem {sh : Shell} {key value : List Char} {v w : Visit} (h : v.Same w)
    (hv : v ∈ textVisits sh key value) : textVisits sh key value = [w] := by
  unfold textVisits at hv ⊢
  split_ifs at hv ⊢
  all_goals first
    | exact absurd hv List.not_mem_nil
    | (obtain rfl := List.mem_singleton.mp hv
       cases h
       rfl)

/-- The stores of an item can be in any order. -/
theorem exists_itemVisit (sh : Shell) (dir : List Char) (g : CfgGroup) {v w : Visit}
    (h : v.Same w) {entry : DictEntry} (hv : v ∈ itemVisits sh dir g entry) :
    ∃ entry', EntryReordered entry entry' ∧ itemVisits sh dir g entry' = [w] := by
  obtain ⟨name, value⟩ := entry
  cases value with
  | text value => exact ⟨_, .refl _, textVisits_of_mem h hv⟩
  | dict item =>
    rw [itemVisits] at hv
    split at hv
    · obtain rfl := List.mem_singleton.mp hv
      cases h with
      | item _ hstores =>
        obtain ⟨item', hperm, rfl⟩ := exists_perm_filterMap (storeOf sh) hstores
        refine ⟨(name, .dict item'), ⟨rfl, .of_perm hperm⟩, ?_⟩
        rw [itemVisits, dif_pos ‹_›]
    · cases hv

theorem logVisits_of_mem {sh : Shell} {v w : Visit} (h : v.Same w) {entry : DictEntry}
    (hv : v ∈ logVisits sh entry) : logVisits sh entry = [w] := by
  obtain ⟨key, value⟩ := entry
  cases value with
  | dict => cases hv
  | text value =>
    rw [logVisits] at hv ⊢
    split_ifs at hv ⊢
    · obtain rfl := List.mem_singleton.mp hv
      cases h
      rfl
    · cases hv

/-- An entry of a section makes one visit. -/
theorem exists_entryVisit (sh : Shell) (dir : List Char) (type : Option GroupType) {v w : Visit}
    (h : v.Same w) {entry : DictEntry} (hv : v ∈ entryVisits sh dir type entry) :
    ∃ entry', EntryReordered entry entry' ∧ entryVisits sh dir type entry' = [w] := by
  cases type with
  | none => cases hv
  | some type =>
    cases type with
    | log => exact ⟨entry, .refl entry, logVisits_of_mem h hv⟩
    | items g => exact exists_itemVisit sh dir g h hv

/-- **Every visit can be the first**, with its stores in any order. -/
theorem exists_first_visit (sh : Shell) {policyData : List DictEntry} {v w : Visit}
    (hv : v ∈ visitsOf sh policyData) (h : v.Same w) :
    ∃ policyData' ws, Reordered (.dict policyData) (.dict policyData') ∧
      visitsOf sh policyData' = w :: ws := by
  refine exists_first hv fun entry hv => ?_
  obtain ⟨key, value⟩ := entry
  cases value with
  | text value => exact ⟨_, [], .refl _, textVisits_of_mem h hv⟩
  | dict entries =>
    obtain ⟨entries', ws, hr, hw⟩ := exists_first hv fun entry hv => by
      obtain ⟨entry', hr, hw⟩ := exists_entryVisit sh key _ h hv
      exact ⟨entry', [], hr, hw⟩
    exact ⟨(key, .dict entries'), ws, ⟨rfl, hr⟩, hw⟩

/-! ## The last visit -/

/-- The stores are in an order in which none fails, if all of them are stores of numbers. -/
def Calm (vs : List Visit) : Prop :=
  ∀ v : ItemVisit, Visit.item v ∈ vs → none ∉ v.stores →
    ∃ write stickyValue enable, v.stores =
      [some (.write, write), some (.stickyValue, stickyValue), some (.enable, enable)]

theorem Calm.append {vs ws : List Visit} (hv : Calm vs) (hw : Calm ws) : Calm (vs ++ ws) := by
  intro v hmem
  rcases List.mem_append.mp hmem with hmem | hmem
  · exact hv v hmem
  · exact hw v hmem

theorem calm_flatMap {f : DictEntry → List Visit} {entries : List DictEntry}
    (h : ∀ entry ∈ entries, Calm (f entry)) : Calm (entries.flatMap f) := by
  intro v hv
  obtain ⟨entry, hentry, hv⟩ := List.mem_flatMap.mp hv
  exact h entry hentry v hv

/-- An entry that stores is one of an attribute, or it fails. -/
theorem storeOf_eq_some {sh : Shell} {key : List Char} {value : PolicyData}
    {x : Option (CfgAttr × U64)} (h : storeOf sh (key, value) = some x) :
    x = none ∨ ∃ attr : CfgAttr, key = attr.name := by
  cases value with
  | dict => cases h
  | text value =>
    rw [storeOf] at h
    split_ifs at h with hkey htouch
    · exact Or.inl (Option.some_inj.mp h).symm
    · obtain ⟨attr, hattr, -⟩ := Option.map_eq_some_iff.mp h
      exact Or.inr ⟨attr, eq_name_of_ofName hattr⟩

theorem storeOf_attr (sh : Shell) (attr : CfgAttr) (value : List Char) :
    storeOf sh (attr.name, .text value) = some ((kstrtoul (sh.echo value) 0).map (attr, ·)) := by
  rw [storeOf, if_neg (name_ne_logVal attr), CfgAttr.ofName_name]
  rfl

/-- Entries that are not of the attributes store nothing, unless one fails. -/
theorem storesNothing {sh : Shell} {rest : List DictEntry}
    (hkeys : ∀ attr : CfgAttr, attr.name ∉ rest.map Prod.fst)
    (hnone : none ∉ rest.filterMap (storeOf sh)) : rest.filterMap (storeOf sh) = [] := by
  refine List.filterMap_eq_nil_iff.mpr ?_
  rintro ⟨key, value⟩ hmem
  refine Option.eq_none_iff_forall_ne_some.mpr fun x hx => ?_
  rcases storeOf_eq_some hx with rfl | ⟨attr, rfl⟩
  · exact hnone (List.mem_filterMap.mpr ⟨_, hmem, hx⟩)
  · exact hkeys attr (List.mem_map.mpr ⟨_, hmem, rfl⟩)

/-- The numbers of an item whose stores are all of numbers. -/
theorem IsItemPolicy.stores_perm {item : List DictEntry} (h : IsItemPolicy item) (sh : Shell)
    (hnone : none ∉ item.filterMap (storeOf sh)) :
    ∃ value : CfgAttr → U64, (item.filterMap (storeOf sh)).Perm
      [some (.write, value .write), some (.stickyValue, value .stickyValue),
        some (.enable, value .enable)] := by
  choose text htext using h.attrs
  have hvalue : ∀ attr, ∃ value, kstrtoul (sh.echo (text attr)) 0 = some value := by
    intro attr
    refine Option.ne_none_iff_exists'.mp fun hnumber => hnone ?_
    exact List.mem_filterMap.mpr ⟨_, htext attr, by rw [storeOf_attr, hnumber]; rfl⟩
  choose value hvalue using hvalue
  -- the three entries come first, and the others store nothing
  let attrs : List CfgAttr := [.write, .stickyValue, .enable]
  have hattrs : ∀ attr, attr ∈ attrs := by intro attr; cases attr <;> decide
  have hnodup : (attrs.map fun attr => (attr.name, PolicyData.text (text attr))).Nodup := by
    refine List.Nodup.of_map Prod.fst ?_
    rw [List.map_map]
    exact show (attrs.map CfgAttr.name).Nodup by decide
  obtain ⟨rest, hrest⟩ := exists_perm_append hnodup (l := item) (by
    intro entry hmem
    obtain ⟨attr, -, rfl⟩ := List.mem_map.mp hmem
    exact htext attr)
  have hkeys : (attrs.map CfgAttr.name ++ rest.map Prod.fst).Nodup := by
    have hperm := hrest.map Prod.fst
    rw [List.map_append, List.map_map] at hperm
    exact hperm.nodup_iff.mp h.keys
  have hstores := hrest.filterMap (storeOf sh)
  rw [List.filterMap_append] at hstores
  have hnothing : rest.filterMap (storeOf sh) = [] := by
    refine storesNothing (fun attr hmem => ?_) fun hmem =>
      hnone (hstores.mem_iff.mpr (List.mem_append_right _ hmem))
    exact (List.nodup_append.mp hkeys).2.2 _ (List.mem_map_of_mem (hattrs attr)) _ hmem rfl
  refine ⟨value, hstores.trans (.of_eq ?_)⟩
  rw [hnothing, List.append_nil, List.filterMap_map]
  simp [attrs, storeOf_attr, hvalue]

/-- The entries can be reordered one by one. -/
theorem exists_entriesReordered {P : DictEntry → Prop} {entries : List DictEntry}
    (h : ∀ entry ∈ entries, ∃ entry', EntryReordered entry entry' ∧ P entry') :
    ∃ entries', List.Forall₂ EntryReordered entries entries' ∧ ∀ entry' ∈ entries', P entry' := by
  induction entries with
  | nil => exact ⟨[], .nil, fun entry' h => absurd h List.not_mem_nil⟩
  | cons entry rest ih =>
    obtain ⟨entry', hr, hentry'⟩ := h entry List.mem_cons_self
    obtain ⟨rest', hrest, hrest'⟩ := ih fun entry hmem => h entry (List.mem_cons_of_mem _ hmem)
    exact ⟨entry' :: rest', .cons hr hrest, List.forall_mem_cons.mpr ⟨hentry', hrest'⟩⟩

theorem calm_of_notMem {vs : List Visit} (h : ∀ v, Visit.item v ∉ vs) : Calm vs :=
  fun v hv => absurd hv (h v)

/-- An entry of a section can be calm. -/
theorem exists_calm_item (sh : Shell) (dir : List Char) (g : CfgGroup) {entries : List DictEntry}
    (h : IsSectionPolicy entries) (entry : DictEntry) (hentry : entry ∈ entries) :
    ∃ entry', EntryReordered entry entry' ∧ Calm (itemVisits sh dir g entry') := by
  obtain ⟨name, value⟩ := entry
  cases value with
  | text value => exact ⟨_, .refl _, calm_of_notMem fun v => item_notMem_textVisits⟩
  | dict item =>
    by_cases hnone : none ∈ item.filterMap (storeOf sh)
    · refine ⟨_, .refl _, fun v hv hv' => ?_⟩
      rw [itemVisits] at hv
      split at hv
      · obtain rfl := Visit.item.inj (List.mem_singleton.mp hv)
        exact absurd hnone hv'
      · cases hv
    · obtain ⟨value, hstores⟩ := (h.items name item hentry).stores_perm sh hnone
      obtain ⟨item', hperm, hstores'⟩ := exists_perm_filterMap (storeOf sh) hstores
      refine ⟨(name, .dict item'), ⟨rfl, .of_perm hperm⟩, fun v hv _ => ?_⟩
      rw [itemVisits] at hv
      split at hv
      · obtain rfl := Visit.item.inj (List.mem_singleton.mp hv)
        exact ⟨_, _, _, hstores'⟩
      · cases hv

theorem exists_calm_entry (sh : Shell) {policyData : List DictEntry}
    (h : IsPolicyDocument policyData) {key : List Char} {entries : List DictEntry}
    (hsection : (key, .dict entries) ∈ policyData) (entry : DictEntry) (hentry : entry ∈ entries) :
    ∃ entry', EntryReordered entry entry' ∧
      Calm (entryVisits sh key (groupChildrenMakeGroup key) entry') := by
  cases htype : groupChildrenMakeGroup key with
  | none => exact ⟨entry, .refl entry, calm_of_notMem fun v => List.not_mem_nil⟩
  | some type =>
    cases type with
    | log => exact ⟨entry, .refl entry, calm_of_notMem fun v => item_notMem_logVisits⟩
    | items g => exact exists_calm_item sh key g (h.sections key entries g hsection htype) _ hentry

/-- A section can be calm. -/
theorem exists_calm_section (sh : Shell) {policyData : List DictEntry}
    (h : IsPolicyDocument policyData) (entry : DictEntry) (hentry : entry ∈ policyData) :
    ∃ entry', EntryReordered entry entry' ∧ Calm (sectionVisits sh entry') := by
  obtain ⟨key, value⟩ := entry
  cases value with
  | text value => exact ⟨_, .refl _, calm_of_notMem fun v => item_notMem_textVisits⟩
  | dict entries =>
    obtain ⟨entries', hr, hcalm⟩ := exists_entriesReordered (exists_calm_entry sh h hentry)
    exact ⟨(key, .dict entries'), ⟨rfl, reordered_dict_iff.mpr ⟨_, .refl _, hr⟩⟩,
      calm_flatMap hcalm⟩

/-- The visit of an entry can be the last one after calm ones, if it can be of the entry and the
others can be calm. -/
theorem exists_last {f : DictEntry → List Visit} {entries : List DictEntry} {v w : Visit}
    (hv : v ∈ entries.flatMap f)
    (hcalm : ∀ entry ∈ entries, ∃ entry', EntryReordered entry entry' ∧ Calm (f entry'))
    (hlast : ∀ entry ∈ entries, v ∈ f entry → ∃ entry' ws, EntryReordered entry entry' ∧
      f entry' = ws ++ [w] ∧ Calm ws) :
    ∃ entries' ws, Reordered (.dict entries) (.dict entries') ∧
      entries'.flatMap f = ws ++ [w] ∧ Calm ws := by
  obtain ⟨entry, hentry, hv⟩ := List.mem_flatMap.mp hv
  obtain ⟨entry', ws, hr, hw, hws⟩ := hlast entry hentry hv
  obtain ⟨rest, -, hperm⟩ := exists_perm_of_mem hentry
  obtain ⟨rest', hrest, hrest'⟩ := exists_entriesReordered fun entry hmem =>
    hcalm entry (hperm.mem_iff.mpr (List.mem_append_left _ hmem))
  refine ⟨rest' ++ [entry'], rest'.flatMap f ++ ws,
    reordered_dict_iff.mpr ⟨rest ++ [entry], hperm, ?_⟩, ?_, (calm_flatMap hrest').append hws⟩
  · exact List.rel_append hrest (.cons hr .nil)
  · rw [List.flatMap_append, List.flatMap_singleton, hw, List.append_assoc]

/-- **Every visit can be the last**, with its stores in any order, after calm ones. -/
theorem exists_last_visit (sh : Shell) {policyData : List DictEntry}
    (hdocument : IsPolicyDocument policyData) {v w : Visit} (hv : v ∈ visitsOf sh policyData)
    (h : v.Same w) :
    ∃ policyData' ws, Reordered (.dict policyData) (.dict policyData') ∧
      visitsOf sh policyData' = ws ++ [w] ∧ Calm ws := by
  have hnil : Calm [] := calm_of_notMem fun _ => List.not_mem_nil
  refine exists_last hv (exists_calm_section sh hdocument) fun entry hentry hv => ?_
  obtain ⟨key, value⟩ := entry
  cases value with
  | text value => exact ⟨_, [], .refl _, textVisits_of_mem h hv, hnil⟩
  | dict entries =>
    obtain ⟨entries', ws, hr, hw, hws⟩ := exists_last hv (exists_calm_entry sh hdocument hentry)
      fun entry _ hv => by
        obtain ⟨entry', hr, hw⟩ := exists_entryVisit sh key _ h hv
        exact ⟨entry', [], hr, hw, hnil⟩
    exact ⟨(key, .dict entries'), ws, ⟨rfl, hr⟩, hw, hws⟩

end IkgtUsage
