import IkgtUsage.Lib.Run
import Mathlib.Data.List.Permutation

/-!
# Lists taken in any order

`assign` makes assignments to a map one after another. Where each key has one value, the order does
not matter (`assign_congr`). `exists_perm_filterMap` and `exists_perm_of_mem` say which orders of a
list there are: every order of what is made of its elements, and one with a given element first and
one with it last.
-/

namespace IkgtUsage.Lib

/-! ## Assignments -/

section Assign

variable {κ β : Type*} [DecidableEq κ]

/-- The map after the assignments. -/
def assign (f : κ → β) (kvs : List (κ × β)) : κ → β :=
  run (fun f kv => Function.update f kv.1 kv.2) f kvs

/-- Each key has one value. -/
def OneValue (kvs : List (κ × β)) : Prop := ∀ k v v', (k, v) ∈ kvs → (k, v') ∈ kvs → v = v'

theorem assign_cons (f : κ → β) (kv : κ × β) (kvs : List (κ × β)) :
    assign f (kv :: kvs) = assign (Function.update f kv.1 kv.2) kvs := rfl

theorem assign_of_notMem {k : κ} {kvs : List (κ × β)} (h : ∀ v, (k, v) ∉ kvs) (f : κ → β) :
    assign f kvs k = f k := by
  induction kvs generalizing f with
  | nil => rfl
  | cons kv kvs ih =>
    have hne : k ≠ kv.1 := by
      rintro rfl
      exact h kv.2 List.mem_cons_self
    rw [assign_cons, ih fun v hv => h v (List.mem_cons_of_mem _ hv), Function.update_of_ne hne]

theorem assign_of_mem {k : κ} {v : β} {kvs : List (κ × β)} (hone : OneValue kvs)
    (hmem : (k, v) ∈ kvs) (f : κ → β) : assign f kvs k = v := by
  induction kvs generalizing f with
  | nil => cases hmem
  | cons kv kvs ih =>
    rw [assign_cons]
    by_cases hrest : ∃ v', (k, v') ∈ kvs
    · obtain ⟨v', hv'⟩ := hrest
      obtain rfl : v = v' := hone k v v' hmem (List.mem_cons_of_mem _ hv')
      exact ih (fun k a b ha hb =>
        hone k a b (List.mem_cons_of_mem _ ha) (List.mem_cons_of_mem _ hb)) hv' _
    · rw [assign_of_notMem fun v' hv' => hrest ⟨v', hv'⟩]
      rcases List.mem_cons.mp hmem with rfl | hmem
      · exact Function.update_self _ _ _
      · exact absurd ⟨v, hmem⟩ hrest

/-- **Any order.** The same assignments leave the same map. -/
theorem assign_congr {kvs kvs' : List (κ × β)} (hone : OneValue kvs)
    (hsame : ∀ kv, kv ∈ kvs ↔ kv ∈ kvs') (f : κ → β) : assign f kvs = assign f kvs' := by
  have hone' : OneValue kvs' := fun k v v' hv hv' =>
    hone k v v' ((hsame _).mpr hv) ((hsame _).mpr hv')
  funext k
  by_cases hk : ∃ v, (k, v) ∈ kvs
  · obtain ⟨v, hv⟩ := hk
    rw [assign_of_mem hone hv, assign_of_mem hone' ((hsame _).mp hv)]
  · rw [assign_of_notMem fun v hv => hk ⟨v, hv⟩,
      assign_of_notMem fun v hv => hk ⟨v, (hsame _).mpr hv⟩]

end Assign

/-! ## The orders of a list -/

section Orders

variable {α β : Type*}

/-- The partner of an element. -/
theorem exists_of_forall₂ {r : α → β → Prop} {l : List α} {m : List β} (h : List.Forall₂ r l m)
    {x : α} (hx : x ∈ l) : ∃ y ∈ m, r x y := by
  induction h with
  | nil => cases hx
  | @cons a b l m hab _ ih =>
    rcases List.mem_cons.mp hx with rfl | hx
    · exact ⟨b, List.mem_cons_self, hab⟩
    · obtain ⟨y, hy, hr⟩ := ih hx
      exact ⟨y, List.mem_cons_of_mem _ hy, hr⟩

/-- Every order of what is made of the elements is made of an order of the elements. -/
theorem exists_perm_filterMap (f : α → Option β) {l : List α} {m : List β}
    (h : (l.filterMap f).Perm m) : ∃ l', l.Perm l' ∧ l'.filterMap f = m := by
  induction m generalizing l with
  | nil => exact ⟨l, .refl l, h.eq_nil⟩
  | cons y m ih =>
    obtain ⟨x, hx, hy⟩ := List.mem_filterMap.mp (h.mem_iff.mpr List.mem_cons_self)
    obtain ⟨as, bs, rfl⟩ := List.append_of_mem hx
    have hfront : (as ++ x :: bs).Perm (x :: (as ++ bs)) := List.perm_middle
    have hrest := (hfront.filterMap f).symm.trans h
    rw [List.filterMap_cons_some hy, List.perm_cons] at hrest
    obtain ⟨l', hl', hm⟩ := ih hrest
    exact ⟨x :: l', hfront.trans (hl'.cons x), by rw [List.filterMap_cons_some hy, hm]⟩

/-- Every element can be the first, and the last. -/
theorem exists_perm_of_mem {x : α} {l : List α} (h : x ∈ l) :
    ∃ rest, l.Perm (x :: rest) ∧ l.Perm (rest ++ [x]) := by
  obtain ⟨as, bs, rfl⟩ := List.append_of_mem h
  have hfront : (as ++ x :: bs).Perm (x :: (as ++ bs)) := List.perm_middle
  exact ⟨as ++ bs, hfront, hfront.trans (List.perm_append_singleton x (as ++ bs)).symm⟩

/-- Different elements can be the first ones. -/
theorem exists_perm_append {l m : List α} (hm : m.Nodup) (h : m ⊆ l) :
    ∃ rest, l.Perm (m ++ rest) := by
  obtain ⟨m', hperm, hsub⟩ := List.subperm_of_subset hm h
  obtain ⟨rest, hrest⟩ := hsub.exists_perm_append
  exact ⟨rest, hrest.trans (hperm.append_right rest)⟩

/-- What is found first, if all that is found is the same. -/
theorem findSome?_of_agree {f : α → Option β} {l : List α} {o : Option β}
    (hagree : ∀ x ∈ l, ∀ b, f x = some b → o = some b) (hmem : ∃ x ∈ l, f x = o) :
    l.findSome? f = o := by
  cases hfind : l.findSome? f with
  | some b =>
    obtain ⟨x, hx, hb⟩ := List.exists_of_findSome?_eq_some hfind
    exact (hagree x hx b hb).symm
  | none =>
    obtain ⟨x, hx, rfl⟩ := hmem
    exact (List.findSome?_eq_none_iff.mp hfind x hx).symm

/-- The orders of three elements. -/
theorem perm_three {l : List α} {a b c : α} (h : l.Perm [a, b, c]) :
    l = [a, b, c] ∨ l = [a, c, b] ∨ l = [b, a, c] ∨ l = [b, c, a] ∨ l = [c, a, b] ∨
      l = [c, b, a] := by
  have hmem := List.mem_permutations.mpr h
  simp [List.permutations] at hmem
  tauto

end Orders

end IkgtUsage.Lib
