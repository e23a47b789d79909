import Mathlib.Data.List.Basic
import Mathlib.Data.List.Range
import Mathlib.Logic.Function.Basic

/-!
# Ring buffers that are never drained

A writer appends records to a ring of `N` slots: record number `q` goes to slot `q % N`, where it
stays until record `q + N` takes its place. `Retains` is what a reader can rely on: the last `N`
records are in their slots, and slots not yet written are blank.

A reader at head `h` that looks at the `k ≤ N` slots before slot `h % N`, in ring order, sees
`window`. Under `Retains`, and once blank slots are dropped, that is the last `k` records, oldest
first (`Retains.window_filter`).
-/

namespace IkgtUsage.Lib

variable {α β : Type*}

/-- The ring `slots` of size `N` after the appends `hist`: record `r` with number `q` is stored as
`enc q r`. -/
structure Retains (N : Nat) (enc : Nat → β → α) (blank : α → Prop) (slots : Nat → α)
    (hist : List β) : Prop where
  recent : ∀ q (hq : q < hist.length), hist.length ≤ q + N → slots (q % N) = enc q hist[q]
  unwritten : ∀ i < N, hist.length ≤ i → blank (slots i)

/-- The last `k` records as they are stored, oldest first. -/
def lastStored (enc : Nat → β → α) (hist : List β) (k : Nat) : List α :=
  (hist.mapIdx enc).drop (hist.length - k)

/-- The `k` slots before slot `head % N`, in ring order. -/
def window (N : Nat) (slots : Nat → α) (head k : Nat) : List α :=
  (List.range' (N + head - k) k).map fun q => slots (q % N)

variable {N : Nat} {enc : Nat → β → α} {blank : α → Prop} {slots : Nat → α} {hist : List β}

theorem length_lastStored (k : Nat) :
    (lastStored enc hist k).length = min k hist.length := by
  unfold lastStored
  rw [List.length_drop, List.length_mapIdx]
  omega

@[simp] theorem lastStored_zero : lastStored enc hist 0 = [] := by
  rw [← List.length_eq_zero_iff, length_lastStored, Nat.zero_min]

theorem lt_of_lt_length_lastStored {k i : Nat} (hi : i < (lastStored enc hist k).length) :
    hist.length - k + i < hist.length := by
  rw [length_lastStored] at hi
  omega

theorem getElem_lastStored {k i : Nat} (hi : i < (lastStored enc hist k).length)
    (hq : hist.length - k + i < hist.length) :
    (lastStored enc hist k)[i] = enc (hist.length - k + i) hist[hist.length - k + i] := by
  simp [lastStored]

theorem length_window (head k : Nat) : (window N slots head k).length = k := by
  unfold window
  rw [List.length_map, List.length_range']

theorem getElem_window {head k i : Nat} (hi : i < (window N slots head k).length) :
    (window N slots head k)[i] = slots ((N + head - k + i) % N) := by
  simp [window]

theorem lastStored_of_le {k : Nat} (h : hist.length ≤ k) :
    lastStored enc hist k = lastStored enc hist hist.length := by
  unfold lastStored
  rw [Nat.sub_eq_zero_of_le h, Nat.sub_self]

/-- The first `n` of the last `k` records. -/
theorem mem_take_lastStored {k n : Nat} {a : α} :
    a ∈ (lastStored enc hist k).take n ↔
      ∃ q, ∃ hq : q < hist.length,
        hist.length - k ≤ q ∧ q < hist.length - k + n ∧ a = enc q hist[q] := by
  rw [List.mem_take_iff_getElem]
  constructor
  · rintro ⟨i, hi, rfl⟩
    have hlen : (lastStored enc hist k).length = min k hist.length := length_lastStored k
    exact ⟨hist.length - k + i, by omega, by omega, by omega, getElem_lastStored _ (by omega)⟩
  · rintro ⟨q, hq, hfirst, hn, rfl⟩
    have hlen : (lastStored enc hist k).length = min k hist.length := length_lastStored k
    have hi : hist.length - k + (q - (hist.length - k)) = q := by omega
    refine ⟨q - (hist.length - k), by omega, ?_⟩
    rw [getElem_lastStored _ (by omega)]
    simp only [hi]

namespace Retains

/-- An empty ring. -/
theorem nil (h : ∀ i < N, blank (slots i)) : Retains N enc blank slots [] :=
  ⟨fun _ hq => absurd hq (Nat.not_lt_zero _), fun i hi _ => h i hi⟩

/-- **Appending a record.** -/
theorem append (h : Retains N enc blank slots hist) (r : β) :
    Retains N enc blank (Function.update slots (hist.length % N) (enc hist.length r))
      (hist ++ [r]) := by
  refine ⟨fun q hq hlast => ?_, fun i hi hlen => ?_⟩
  · rw [List.length_append, List.length_singleton] at hq hlast
    by_cases hlt : q < hist.length
    · have hne : q % N ≠ hist.length % N := by
        intro heq
        -- two numbers less than `N` apart are in different slots
        have hmod : (hist.length - q) % N = 0 := Nat.sub_mod_eq_zero_of_mod_eq heq.symm
        rw [Nat.mod_eq_of_lt (by omega)] at hmod
        omega
      rw [Function.update_of_ne hne, h.recent q hlt (by omega), List.getElem_append_left]
    · have hq' : q = hist.length := by omega
      subst hq'
      rw [Function.update_self, List.getElem_append_right (le_refl _)]
      simp
  · rw [List.length_append, List.length_singleton] at hlen
    have hne : i ≠ hist.length % N := by
      rw [Nat.mod_eq_of_lt (by omega)]
      omega
    rw [Function.update_of_ne hne]
    exact h.unwritten i hi (by omega)

/-- The window over slots that have been written. -/
theorem window_eq (h : Retains N enc blank slots hist) {k : Nat} (hk : k ≤ N)
    (hlen : k ≤ hist.length) : window N slots hist.length k = lastStored enc hist k := by
  refine List.ext_getElem ?_ fun i hi hi' => ?_
  · rw [length_lastStored, length_window]
    omega
  · have hpos : N + hist.length - k + i = hist.length - k + i + N := by
      rw [length_window] at hi
      omega
    rw [getElem_lastStored hi' (lt_of_lt_length_lastStored hi'), getElem_window, hpos,
      Nat.add_mod_right]
    exact h.recent _ _ (by omega)

/-- **What a reader sees**, once blank slots are dropped. -/
theorem window_filter (h : Retains N enc blank slots hist) {k : Nat} (hk : k ≤ N)
    {valid : α → Bool} (henc : ∀ q r, valid (enc q r) = true)
    (hblank : ∀ a, blank a → valid a = false) :
    (window N slots hist.length k).filter valid = lastStored enc hist k := by
  have hall : ∀ k, (lastStored enc hist k).filter valid = lastStored enc hist k := by
    intro k
    rw [List.filter_eq_self]
    intro a ha
    obtain ⟨i, hi, rfl⟩ := List.getElem_of_mem ha
    rw [getElem_lastStored hi (lt_of_lt_length_lastStored hi)]
    exact henc _ _
  by_cases hlen : k ≤ hist.length
  · rw [h.window_eq hk hlen, hall]
  · -- the first slots of the window have not been written yet
    have hsplit : window N slots hist.length k =
        (List.range' (N + hist.length - k) (k - hist.length)).map (fun q => slots (q % N)) ++
          window N slots hist.length hist.length := by
      have hrange := List.range'_append_1 (s := N + hist.length - k) (m := k - hist.length)
        (n := hist.length)
      have hend : N + hist.length - k + (k - hist.length) = N + hist.length - hist.length := by
        omega
      have hlength : k - hist.length + hist.length = k := by omega
      rw [hend, hlength] at hrange
      unfold window
      rw [← List.map_append, hrange]
    have hfirst : ((List.range' (N + hist.length - k) (k - hist.length)).map
        fun q => slots (q % N)).filter valid = [] := by
      rw [List.filter_eq_nil_iff]
      intro a ha
      obtain ⟨q, hq, rfl⟩ := List.mem_map.mp ha
      rw [List.mem_range'_1] at hq
      rw [Nat.mod_eq_of_lt (by omega), hblank _ (h.unwritten q (by omega) (by omega))]
      exact Bool.false_ne_true
    rw [hsplit, List.filter_append, hfirst, List.nil_append, h.window_eq (by omega) (le_refl _),
      hall, lastStored_of_le (k := k) (by omega)]

end Retains

end IkgtUsage.Lib
