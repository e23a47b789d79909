import Mathlib.Data.Finmap
import Mathlib.Data.Finset.Card
import Mathlib.Data.List.Nodup

/-!
# A slot array as a bounded finite map

An array of slots, each with a key; the key `free` marks a slot that is not in use. An element is
put into the first slot that already has its key, or else into the first free slot, or nowhere.
It is released by overwriting its slot with one whose key is `free`, whatever else is left in it.

`usedKeys` lists the keys in use and `Distinct` says that none occurs twice. On such an array `put`
and `release` are the insertion and the erasure of the finite map `toMap` (`toMap_put`,
`toMap_release`), bounded by the number of slots, and keep it `Distinct`.
-/

namespace IkgtUsage.Lib

/-! ## The scan that updates the first match -/

section Scan

variable {α β : Type*} (p : α → Bool) (f : α → α)

/-- `for x in xs: if p x { x := f x; break }`. -/
def updateFirst : List α → List α
  | [] => []
  | x :: xs => if p x then f x :: xs else x :: updateFirst xs

@[simp] theorem length_updateFirst (xs : List α) : (updateFirst p f xs).length = xs.length := by
  induction xs with
  | nil => rfl
  | cons x xs ih =>
    unfold updateFirst
    split
    · rfl
    · simp only [List.length_cons, ih]

variable {p f}

/-- A scan that finds nothing changes nothing. -/
theorem updateFirst_of_none {xs : List α} (h : xs.any p = false) : updateFirst p f xs = xs := by
  induction xs with
  | nil => rfl
  | cons x xs ih =>
    simp only [List.any_cons, Bool.or_eq_false_iff] at h
    unfold updateFirst
    rw [if_neg (by rw [h.1]; exact Bool.false_ne_true), ih h.2]

/-- A scan that finds something rewrites the first match in place. -/
theorem updateFirst_of_any {xs : List α} (h : xs.any p = true) :
    ∃ pre x post, xs = pre ++ x :: post ∧ p x = true ∧ updateFirst p f xs = pre ++ f x :: post := by
  induction xs with
  | nil => exact absurd h (by simp)
  | cons x xs ih =>
    by_cases hx : p x = true
    · exact ⟨[], x, xs, rfl, hx, by simp [updateFirst, hx]⟩
    · have hrest : xs.any p = true := by simpa [hx] using h
      obtain ⟨pre, y, post, hxs, hy, hupd⟩ := ih hrest
      exact ⟨x :: pre, y, post, by rw [hxs]; rfl, hy, by simp [updateFirst, hx, hupd]⟩

/-- What `f` leaves alone on the matches, the scan leaves alone everywhere. -/
theorem map_updateFirst {g : α → β} (hg : ∀ x, p x = true → g (f x) = g x) (xs : List α) :
    (updateFirst p f xs).map g = xs.map g := by
  induction xs with
  | nil => rfl
  | cons x xs ih =>
    unfold updateFirst
    split
    · rename_i hx
      rw [List.map_cons, List.map_cons, hg x hx]
    · rw [List.map_cons, List.map_cons, ih]

/-- A search for something else than what the scan rewrites, or writes, is undisturbed. -/
theorem find?_updateFirst_of_not {q : α → Bool} (hq : ∀ x, p x = true → q x = false)
    (hqf : ∀ x, p x = true → q (f x) = false) (xs : List α) :
    (updateFirst p f xs).find? q = xs.find? q := by
  induction xs with
  | nil => rfl
  | cons x xs ih =>
    unfold updateFirst
    split
    · rename_i hx
      rw [List.find?_cons, List.find?_cons, hq x hx, hqf x hx]
    · rw [List.find?_cons, List.find?_cons, ih]

end Scan

/-! ## Keys in use -/

section Keyed

variable {α β κ : Type*} [DecidableEq κ] (key : α → κ) (free : κ)

/-- The keys of the slots in use, in slot order. -/
def usedKeys (xs : List α) : List κ := (xs.map key).filter (· ≠ free)

/-- No two slots in use have one key. -/
def Distinct (xs : List α) : Prop := (usedKeys key free xs).Nodup

/-- The first slot with key `k`. -/
def slotOf (k : κ) (xs : List α) : Option α := xs.find? fun x => key x = k

/-- Put `e` into the slot of its key, or else into a free slot, or else nowhere. -/
def put (e : α) (xs : List α) : List α :=
  if xs.any (fun x => key x = key e) then updateFirst (fun x => key x = key e) (fun _ => e) xs
  else updateFirst (fun x => key x = free) (fun _ => e) xs

/-- Release the slot of `k`: `clear` gives it the key `free`. -/
def release (k : κ) (clear : α → α) (xs : List α) : List α :=
  updateFirst (fun x => key x = k) clear xs

variable {key free}

theorem mem_usedKeys {xs : List α} {k : κ} :
    k ∈ usedKeys key free xs ↔ k ≠ free ∧ ∃ x ∈ xs, key x = k := by
  unfold usedKeys
  rw [List.mem_filter, List.mem_map, decide_eq_true_eq, and_comm]

theorem usedKeys_append (xs ys : List α) :
    usedKeys key free (xs ++ ys) = usedKeys key free xs ++ usedKeys key free ys := by
  simp [usedKeys]

theorem usedKeys_cons_used {x : α} (hx : key x ≠ free) (xs : List α) :
    usedKeys key free (x :: xs) = key x :: usedKeys key free xs := by
  simp [usedKeys, hx]

theorem usedKeys_cons_free {x : α} (hx : key x = free) (xs : List α) :
    usedKeys key free (x :: xs) = usedKeys key free xs := by
  simp [usedKeys, hx]

/-- The keys in use depend on the keys only. -/
theorem usedKeys_congr {xs ys : List α} (h : xs.map key = ys.map key) :
    usedKeys key free xs = usedKeys key free ys := by
  unfold usedKeys
  rw [h]

theorem length_usedKeys_le (xs : List α) : (usedKeys key free xs).length ≤ xs.length := by
  have := List.length_filter_le (fun k => decide (k ≠ free)) (xs.map key)
  rwa [List.length_map] at this

/-- A slot is free exactly when fewer keys are in use than there are slots. -/
theorem any_free_iff {xs : List α} :
    xs.any (fun x => key x = free) = true ↔ (usedKeys key free xs).length < xs.length := by
  induction xs with
  | nil => simp [usedKeys]
  | cons x xs ih =>
    by_cases hx : key x = free
    · have := @length_usedKeys_le _ _ _ key free xs
      rw [usedKeys_cons_free hx]
      simp [hx]
      omega
    · rw [usedKeys_cons_used hx]
      simp [hx] at ih ⊢
      exact ih

/-! ## The slot of a key -/

theorem slotOf_eq_none_iff {k : κ} {xs : List α} :
    slotOf key k xs = none ↔ ∀ x ∈ xs, key x ≠ k := by
  simp [slotOf, List.find?_eq_none]

theorem key_of_slotOf {k : κ} {xs : List α} {x : α} (h : slotOf key k xs = some x) :
    key x = k := by
  simpa using List.find?_some h

theorem mem_of_slotOf {k : κ} {xs : List α} {x : α} (h : slotOf key k xs = some x) : x ∈ xs :=
  List.mem_of_find?_eq_some h

theorem slotOf_isSome_iff {k : κ} {xs : List α} :
    (slotOf key k xs).isSome = true ↔ ∃ x ∈ xs, key x = k := by
  simp [slotOf, List.find?_isSome]

/-- With distinct keys, the slot of a key in use is the only one that has it. -/
theorem slotOf_of_mem {xs : List α} (hd : Distinct key free xs) {x : α} (hx : x ∈ xs)
    (hfree : key x ≠ free) : slotOf key (key x) xs = some x := by
  induction xs with
  | nil => exact absurd hx List.not_mem_nil
  | cons y ys ih =>
    unfold Distinct at hd
    by_cases hy : key y = free
    · rw [usedKeys_cons_free hy] at hd
      have hne : key y ≠ key x := fun h => hfree (h ▸ hy)
      have hx' : x ∈ ys := by
        rcases List.mem_cons.mp hx with rfl | h
        · exact absurd rfl hne
        · exact h
      have := ih hd hx'
      unfold slotOf at this ⊢
      rw [List.find?_cons, this]
      simp [hne]
    · rw [usedKeys_cons_used hy, List.nodup_cons] at hd
      rcases List.mem_cons.mp hx with rfl | hx'
      · simp [slotOf]
      · have hne : key y ≠ key x := fun h =>
          hd.1 (mem_usedKeys.mpr ⟨hy, x, hx', h.symm⟩)
        have := ih hd.2 hx'
        unfold slotOf at this ⊢
        rw [List.find?_cons, this]
        simp [hne]

/-- With distinct keys, a scan for a key in use updates the one slot that has it. -/
theorem updateFirst_eq_map {xs : List α} (hd : Distinct key free xs) {k : κ} (hk : k ≠ free)
    (f : α → α) :
    updateFirst (fun x => key x = k) f xs = xs.map fun x => if key x = k then f x else x := by
  induction xs with
  | nil => rfl
  | cons x xs ih =>
    unfold Distinct at hd
    unfold updateFirst
    rw [List.map_cons]
    by_cases hx : key x = k
    · -- no later slot has the key
      rw [usedKeys_cons_used (hx ▸ hk), List.nodup_cons] at hd
      have hrest : ∀ y ∈ xs, key y ≠ k := fun y hy hyk =>
        hd.1 (mem_usedKeys.mpr ⟨hx ▸ hk, y, hy, hyk.trans hx.symm⟩)
      rw [if_pos (decide_eq_true hx), if_pos hx]
      congr 1
      refine (List.map_id xs).symm.trans (List.map_congr_left fun y hy => ?_)
      rw [if_neg (hrest y hy), id]
    · have htail : Distinct key free xs := by
        unfold Distinct
        by_cases hxf : key x = free
        · rwa [usedKeys_cons_free hxf] at hd
        · rw [usedKeys_cons_used hxf] at hd
          exact (List.nodup_cons.mp hd).2
      rw [if_neg (by simpa using hx), if_neg hx, ih htail]

/-! ## `put` -/

/-- There is a slot for `e`: one that has its key, or a free one. -/
def Room (key : α → κ) (free : κ) (k : κ) (xs : List α) : Prop :=
  k ∈ usedKeys key free xs ∨ (usedKeys key free xs).length < xs.length

instance (k : κ) (xs : List α) : Decidable (Room key free k xs) := by
  unfold Room; infer_instance

theorem slotOf_put_ne {e : α} {k : κ} (hk : k ≠ key e) (hfree : k ≠ free) (xs : List α) :
    slotOf key k (put key free e xs) = slotOf key k xs := by
  unfold slotOf put
  split
  · refine find?_updateFirst_of_not (fun x hx => ?_) (fun x _ => ?_) xs
    · simp only [decide_eq_true_eq] at hx
      simp [hx, hk.symm]
    · simp [hk.symm]
  · refine find?_updateFirst_of_not (fun x hx => ?_) (fun x _ => ?_) xs
    · simp only [decide_eq_true_eq] at hx
      simp [hx, hfree.symm]
    · simp [hk.symm]

/-- A scan over an array in which some slot satisfies `p` writes `e` where the search finds it. -/
theorem find?_updateFirst_const {p q : α → Bool} {e : α} (hq : q e = true) {xs : List α}
    (hany : xs.any p = true) (hpq : ∀ x ∈ xs, q x = true → p x = true) :
    (updateFirst p (fun _ => e) xs).find? q = some e := by
  induction xs with
  | nil => exact absurd hany (by simp)
  | cons x xs ih =>
    unfold updateFirst
    by_cases hx : p x = true
    · rw [if_pos hx, List.find?_cons, hq]
    · have hqx : q x = false := by
        cases h : q x with
        | false => rfl
        | true => exact absurd (hpq x List.mem_cons_self h) hx
      rw [if_neg hx, List.find?_cons, hqx]
      exact ih (by simpa [hx] using hany) fun y hy => hpq y (List.mem_cons_of_mem _ hy)

theorem slotOf_put_self {e : α} {xs : List α} (hroom : Room key free (key e) xs) :
    slotOf key (key e) (put key free e xs) = some e := by
  unfold slotOf put
  split
  · rename_i hany
    exact find?_updateFirst_const (by simp) hany fun x _ hx => hx
  · rename_i hany
    have habsent : ∀ x ∈ xs, key x ≠ key e := by simpa using hany
    refine find?_updateFirst_const (by simp) ?_ fun x hx hxe => ?_
    · refine any_free_iff.mpr (hroom.resolve_left fun hmem => ?_)
      obtain ⟨x, hx, hxe⟩ := (mem_usedKeys.mp hmem).2
      exact habsent x hx hxe
    · exact absurd (by simpa using hxe) (habsent x hx)

theorem put_of_full {e : α} {xs : List α} (hfree : key e ≠ free)
    (hfull : ¬ Room key free (key e) xs) : put key free e xs = xs := by
  unfold Room at hfull
  push Not at hfull
  unfold put
  rw [if_neg, updateFirst_of_none]
  · have := mt any_free_iff.mp (not_lt.mpr hfull.2)
    simpa using this
  · intro hany
    obtain ⟨x, hx, hxe⟩ := List.any_eq_true.mp hany
    exact hfull.1 (mem_usedKeys.mpr ⟨hfree, x, hx, by simpa using hxe⟩)

/-- After a `put` a slot has the key exactly when there was room for it: it is the one put. -/
theorem exists_mem_put_iff {e : α} {xs : List α} (hfree : key e ≠ free) {p : α → Prop}
    (hp : p e) :
    (∃ x ∈ put key free e xs, key x = key e ∧ p x) ↔ Room key free (key e) xs := by
  refine ⟨?_, fun hroom => ⟨e, mem_of_slotOf (slotOf_put_self hroom), rfl, hp⟩⟩
  rintro ⟨x, hx, hkey, -⟩
  by_contra hfull
  rw [put_of_full hfree hfull] at hx
  exact hfull (Or.inl (mem_usedKeys.mpr ⟨hfree, x, hx, hkey⟩))

/-- A scan that would write what is already there changes nothing. -/
theorem updateFirst_const_of_find? {p : α → Bool} {e : α} {xs : List α}
    (h : xs.find? p = some e) : updateFirst p (fun _ => e) xs = xs := by
  induction xs with
  | nil => rfl
  | cons x xs ih =>
    unfold updateFirst
    by_cases hx : p x = true
    · rw [List.find?_cons, hx, Option.some_inj] at h
      rw [if_pos hx, h]
    · rw [List.find?_cons, Bool.eq_false_iff.mpr hx] at h
      rw [if_neg hx, ih h]

/-- **Pigeonhole on the slots.** With as many slots as members of `S`, there is room for every
member exactly when a slot is free or no key outside `S` is in use. -/
theorem forall_room_iff {xs : List α} (hd : Distinct key free xs) {S : Finset κ}
    (hcard : S.card = xs.length) :
    (∀ k ∈ S, Room key free k xs) ↔
      (usedKeys key free xs).length < xs.length ∨ ∀ k ∈ usedKeys key free xs, k ∈ S := by
  by_cases hroom : (usedKeys key free xs).length < xs.length
  · exact iff_of_true (fun _ _ => Or.inr hroom) (Or.inl hroom)
  -- no slot is free: as many keys are in use as `S` has members
  have hfull : (usedKeys key free xs).toFinset.card = S.card := by
    rw [List.toFinset_card_of_nodup hd, hcard]
    exact le_antisymm (length_usedKeys_le xs) (not_lt.mp hroom)
  refine ⟨fun h => Or.inr fun k hk => ?_, fun h k hk => Or.inl ?_⟩
  · have hsub : S ⊆ (usedKeys key free xs).toFinset := fun k hk =>
      List.mem_toFinset.mpr ((h k hk).resolve_right hroom)
    rw [Finset.eq_of_subset_of_card_le hsub hfull.le]
    exact List.mem_toFinset.mpr hk
  · have hsub : (usedKeys key free xs).toFinset ⊆ S := fun k hk =>
      h.resolve_left hroom k (List.mem_toFinset.mp hk)
    rw [← Finset.eq_of_subset_of_card_le hsub hfull.ge] at hk
    exact List.mem_toFinset.mp hk

/-- Putting over a slot of the same key keeps the keys. -/
theorem usedKeys_put_of_mem {e : α} {xs : List α} (hmem : key e ∈ usedKeys key free xs) :
    usedKeys key free (put key free e xs) = usedKeys key free xs := by
  obtain ⟨-, x, hx, hxe⟩ := mem_usedKeys.mp hmem
  unfold put
  rw [if_pos (List.any_eq_true.mpr ⟨x, hx, by simpa using hxe⟩)]
  exact usedKeys_congr (map_updateFirst (fun y hy => by simpa [eq_comm] using hy) xs)

/-- Putting into a free slot adds the key. -/
theorem usedKeys_put_perm {e : α} {xs : List α} (hfree : key e ≠ free)
    (habsent : key e ∉ usedKeys key free xs) (hroom : (usedKeys key free xs).length < xs.length) :
    (usedKeys key free (put key free e xs)).Perm (key e :: usedKeys key free xs) := by
  have hno : ¬ xs.any (fun x => key x = key e) = true := by
    intro hany
    obtain ⟨x, hx, hxe⟩ := List.any_eq_true.mp hany
    exact habsent (mem_usedKeys.mpr ⟨hfree, x, hx, by simpa using hxe⟩)
  unfold put
  rw [if_neg hno]
  obtain ⟨pre, x, post, hxs, hx, hupd⟩ :=
    updateFirst_of_any (f := fun _ => e) (any_free_iff.mpr hroom)
  have hxfree : key x = free := by simpa using hx
  rw [hupd, hxs, usedKeys_append, usedKeys_append, usedKeys_cons_used hfree,
    usedKeys_cons_free hxfree]
  exact List.perm_middle

theorem distinct_put {e : α} {xs : List α} (hfree : key e ≠ free) (hd : Distinct key free xs) :
    Distinct key free (put key free e xs) := by
  by_cases hmem : key e ∈ usedKeys key free xs
  · unfold Distinct
    rwa [usedKeys_put_of_mem hmem]
  · by_cases hroom : (usedKeys key free xs).length < xs.length
    · exact (usedKeys_put_perm hfree hmem hroom).nodup_iff.mpr (List.nodup_cons.mpr ⟨hmem, hd⟩)
    · rwa [put_of_full hfree (by unfold Room; tauto)]

/-! ## `release` -/

theorem release_of_absent {k : κ} {clear : α → α} {xs : List α} (hk : k ≠ free)
    (h : k ∉ usedKeys key free xs) : release key k clear xs = xs := by
  refine updateFirst_of_none ?_
  rw [Bool.eq_false_iff]
  intro hany
  obtain ⟨x, hx, hxk⟩ := List.any_eq_true.mp hany
  exact h (mem_usedKeys.mpr ⟨hk, x, hx, by simpa using hxk⟩)

/-- Releasing a key in use removes it from the keys. -/
theorem usedKeys_release_perm {k : κ} {clear : α → α} (hclear : ∀ x, key (clear x) = free)
    {xs : List α} (hmem : k ∈ usedKeys key free xs) :
    (usedKeys key free xs).Perm (k :: usedKeys key free (release key k clear xs)) := by
  obtain ⟨hk, y, hy, hyk⟩ := mem_usedKeys.mp hmem
  obtain ⟨pre, x, post, hxs, hx, hupd⟩ :=
    updateFirst_of_any (f := clear) (p := fun x => key x = k)
      (List.any_eq_true.mpr ⟨y, hy, by simpa using hyk⟩)
  have hxk : key x = k := by simpa using hx
  unfold release
  rw [hupd, hxs, usedKeys_append, usedKeys_append, usedKeys_cons_free (hclear x),
    usedKeys_cons_used (by rw [hxk]; exact hk), hxk]
  exact List.perm_middle

theorem distinct_release {k : κ} {clear : α → α} (hclear : ∀ x, key (clear x) = free)
    (hk : k ≠ free) {xs : List α} (hd : Distinct key free xs) :
    Distinct key free (release key k clear xs) := by
  by_cases hmem : k ∈ usedKeys key free xs
  · exact (List.nodup_cons.mp ((usedKeys_release_perm hclear hmem).nodup_iff.mp hd)).2
  · rwa [release_of_absent hk hmem]

theorem slotOf_release_ne {k k' : κ} {clear : α → α} (hclear : ∀ x, key (clear x) = free)
    (hne : k' ≠ k) (hfree : k' ≠ free) (xs : List α) :
    slotOf key k' (release key k clear xs) = slotOf key k' xs := by
  refine find?_updateFirst_of_not (fun x hx => ?_) (fun x _ => ?_) xs
  · simp only [decide_eq_true_eq] at hx
    simp [hx, hne.symm]
  · simp [hclear, hfree.symm]

/-- After the release no slot has the key: there was only one. -/
theorem slotOf_release_self {k : κ} {clear : α → α} (hclear : ∀ x, key (clear x) = free)
    (hk : k ≠ free) {xs : List α} (hd : Distinct key free xs) :
    slotOf key k (release key k clear xs) = none := by
  have hnot : k ∉ usedKeys key free (release key k clear xs) := by
    by_cases hmem : k ∈ usedKeys key free xs
    · exact (List.nodup_cons.mp ((usedKeys_release_perm hclear hmem).nodup_iff.mp hd)).1
    · rwa [release_of_absent hk hmem]
  exact slotOf_eq_none_iff.mpr fun x hx hxk => hnot (mem_usedKeys.mpr ⟨hk, x, hx, hxk⟩)

/-! ## The finite map -/

variable (key free)

/-- The slots in use, read as a finite map from key to value. -/
def toMap (val : α → β) (xs : List α) : Finmap fun _ : κ => β :=
  ((xs.filter fun x => key x ≠ free).map fun x => ⟨key x, val x⟩ : List (Sigma fun _ => β)).toFinmap

/-- Insertion into a map that may hold at most `cap` keys. -/
def insertBounded (cap : Nat) (k : κ) (v : β) (m : Finmap fun _ : κ => β) : Finmap fun _ : κ => β :=
  if k ∈ m ∨ m.keys.card < cap then m.insert k v else m

variable {key free}

/-- **Pigeonhole.** If the keys are among `S`, which has no more members than the map may hold, a
member of `S` can always be inserted. -/
theorem insertBounded_of_subset {m : Finmap fun _ : κ => β} {S : Finset κ} {cap : Nat} {k : κ}
    (hS : m.keys ⊆ S) (hcard : S.card ≤ cap) (hk : k ∈ S) (v : β) :
    insertBounded cap k v m = m.insert k v := by
  unfold insertBounded
  by_cases hmem : k ∈ m
  · rw [if_pos (Or.inl hmem)]
  · have hsub : m.keys ⊂ S :=
      (Finset.ssubset_iff_of_subset hS).mpr ⟨k, hk, fun h => hmem (Finmap.mem_keys.mp h)⟩
    rw [if_pos (Or.inr (lt_of_lt_of_le (Finset.card_lt_card hsub) hcard))]

/-- The map depends on the keys and the values only. -/
theorem toMap_congr (val : α → β) {xs ys : List α}
    (h : xs.map (fun x => (key x, val x)) = ys.map (fun x => (key x, val x))) :
    toMap key free val xs = toMap key free val ys := by
  have hpairs : ∀ zs : List α, (zs.filter fun x => key x ≠ free).map
      (fun x => (⟨key x, val x⟩ : Sigma fun _ => β)) =
        ((zs.map fun x => (key x, val x)).filter fun p => p.1 ≠ free).map
          fun p => (⟨p.1, p.2⟩ : Sigma fun _ => β) := by
    intro zs
    rw [List.filter_map, List.map_map]
    rfl
  unfold toMap
  rw [hpairs, hpairs, h]

/-- A lookup in the map is a search of the slots. -/
theorem lookup_toMap (val : α → β) {k : κ} (hk : k ≠ free) (xs : List α) :
    (toMap key free val xs).lookup k = (slotOf key k xs).map val := by
  unfold toMap
  rw [Finmap.dlookup_list_toFinmap]
  induction xs with
  | nil => rfl
  | cons x xs ih =>
    unfold slotOf at ih ⊢
    rw [List.find?_cons]
    by_cases hx : key x = k
    · subst hx
      simp [hk]
    · by_cases hxf : key x = free
      · simpa [hx, hxf, hk.symm] using ih
      · rw [List.filter_cons_of_pos (by simpa using hxf), List.map_cons,
          List.dlookup_cons_ne _ _ (Ne.symm hx), ih]
        simp [hx]

theorem lookup_toMap_free (val : α → β) (xs : List α) :
    (toMap key free val xs).lookup free = none := by
  unfold toMap
  rw [Finmap.dlookup_list_toFinmap, List.dlookup_eq_none]
  simp [List.keys]

theorem keys_toMap (val : α → β) (xs : List α) :
    (toMap key free val xs).keys = (usedKeys key free xs).toFinset := by
  ext k
  rw [Finmap.mem_keys, ← Finmap.lookup_isSome, List.mem_toFinset, mem_usedKeys]
  by_cases hk : k = free
  · subst hk
    simp [lookup_toMap_free]
  · rw [lookup_toMap val hk, Option.isSome_map, slotOf_isSome_iff]
    simp [hk]

theorem card_keys_toMap (val : α → β) {xs : List α} (hd : Distinct key free xs) :
    (toMap key free val xs).keys.card = (usedKeys key free xs).length := by
  rw [keys_toMap, List.toFinset_card_of_nodup hd]

theorem mem_toMap (val : α → β) {xs : List α} {k : κ} :
    k ∈ toMap key free val xs ↔ k ∈ usedKeys key free xs := by
  rw [← Finmap.mem_keys, keys_toMap, List.mem_toFinset]

/-- **`put` is the bounded insertion.** -/
theorem toMap_put (val : α → β) {e : α} {xs : List α} (hfree : key e ≠ free)
    (hd : Distinct key free xs) :
    toMap key free val (put key free e xs) =
      insertBounded xs.length (key e) (val e) (toMap key free val xs) := by
  have hcond : (key e ∈ toMap key free val xs ∨
      (toMap key free val xs).keys.card < xs.length) ↔ Room key free (key e) xs := by
    rw [mem_toMap, card_keys_toMap val hd]
    exact Iff.rfl
  unfold insertBounded
  by_cases hroom : Room key free (key e) xs
  · rw [if_pos (hcond.mpr hroom)]
    refine Finmap.ext_lookup fun k => ?_
    by_cases hk : k = key e
    · subst hk
      rw [Finmap.lookup_insert, lookup_toMap val hfree, slotOf_put_self hroom, Option.map_some]
    · rw [Finmap.lookup_insert_of_ne _ hk]
      by_cases hkf : k = free
      · subst hkf
        rw [lookup_toMap_free, lookup_toMap_free]
      · rw [lookup_toMap val hkf, lookup_toMap val hkf, slotOf_put_ne hk hkf]
  · rw [if_neg (mt hcond.mp hroom), put_of_full hfree hroom]

/-- **`release` is the erasure.** -/
theorem toMap_release (val : α → β) {k : κ} {clear : α → α} (hclear : ∀ x, key (clear x) = free)
    (hk : k ≠ free) {xs : List α} (hd : Distinct key free xs) :
    toMap key free val (release key k clear xs) = (toMap key free val xs).erase k := by
  refine Finmap.ext_lookup fun j => ?_
  by_cases hj : j = k
  · subst hj
    rw [Finmap.lookup_erase, lookup_toMap val hk, slotOf_release_self hclear hk hd, Option.map_none]
  · rw [Finmap.lookup_erase_ne hj]
    by_cases hjf : j = free
    · subst hjf
      rw [lookup_toMap_free, lookup_toMap_free]
    · rw [lookup_toMap val hjf, lookup_toMap val hjf, slotOf_release_ne hclear hj hjf]

end Keyed

end IkgtUsage.Lib
