import Mathlib.Data.List.Basic

/-!
# Numbers as text

A numeral is the digits of a number in some base, most significant first, as `Nat.toDigits` gives
them, each digit written as the character that `f` makes of it. `readNumeral` reads it back with a
valuation of the characters (`readNumeral_numeral`). It reads no character that is not a digit, so a
character that is none can separate numerals.
-/

namespace IkgtUsage.Lib

/-- The numeral of `n` in base `b`. -/
def numeral (f : Char → Char) (b n : Nat) : List Char := (Nat.toDigits b n).map f

/-- The number that the digits make, read after those of `v`; `none` if a character is no digit of
base `b`. -/
def readNumeral (value : Char → Option Nat) (b : Nat) : List Char → Nat → Option Nat
  | [], v => some v
  | c :: s, v =>
    match value c with
    | some d => if d < b then readNumeral value b s (v * b + d) else none
    | none => none

/-- The digits of base `b`, as `f` writes them, are read by `value`. -/
def ReadsDigits (f : Char → Char) (value : Char → Option Nat) (b : Nat) : Prop :=
  ∀ d < b, value (f d.digitChar) = some d

section Numeral

variable {f : Char → Char} {value : Char → Option Nat} {b : Nat}

theorem readNumeral_append (s t : List Char) :
    ∀ v, readNumeral value b (s ++ t) v =
      (readNumeral value b s v).bind (readNumeral value b t) := by
  induction s with
  | nil => exact fun v => rfl
  | cons c s ih =>
    intro v
    simp only [List.cons_append, readNumeral]
    cases value c with
    | none => rfl
    | some d =>
      by_cases hd : d < b
      · simp only [if_pos hd, ih]
      · simp only [if_neg hd, Option.bind_none]

/-- One more digit. -/
theorem numeral_of_le (hb : 1 < b) {n : Nat} (hn : b ≤ n) :
    numeral f b n = numeral f b (n / b) ++ [f (n % b).digitChar] := by
  unfold numeral
  rw [Nat.toDigits_of_base_le hb hn, List.map_append, List.map_singleton]

theorem numeral_of_lt {n : Nat} (hn : n < b) : numeral f b n = [f n.digitChar] := by
  unfold numeral
  rw [Nat.toDigits_of_lt_base hn, List.map_singleton]

theorem numeral_ne_nil (n : Nat) : numeral f b n ≠ [] := by
  unfold numeral
  simp

theorem readNumeral_singleton (h : ReadsDigits f value b) {d : Nat} (hd : d < b) (v : Nat) :
    readNumeral value b [f d.digitChar] v = some (v * b + d) := by
  simp only [readNumeral, h d hd, if_pos hd]

/-- **A numeral reads back as its number.** -/
theorem readNumeral_numeral (hb : 1 < b) (h : ReadsDigits f value b) (n : Nat) :
    readNumeral value b (numeral f b n) 0 = some n := by
  induction n using Nat.strongRecOn with
  | ind n ih =>
    by_cases hn : n < b
    · rw [numeral_of_lt hn, readNumeral_singleton h hn, Nat.zero_mul, Nat.zero_add]
    · have hdiv : n / b < n := Nat.div_lt_self (by omega) hb
      rw [numeral_of_le hb (by omega), readNumeral_append, ih _ hdiv, Option.bind_some,
        readNumeral_singleton h (Nat.mod_lt n (by omega)), Nat.div_add_mod']

/-- What can be read consists of digits. -/
theorem value_of_readNumeral {s : List Char} :
    ∀ {v w : Nat}, readNumeral value b s v = some w → ∀ c ∈ s, ∃ d < b, value c = some d := by
  induction s with
  | nil => exact fun _ c hc => absurd hc List.not_mem_nil
  | cons c s ih =>
    intro v w h c' hc'
    simp only [readNumeral] at h
    cases hvalue : value c with
    | none =>
      rw [hvalue] at h
      cases h
    | some d =>
      rw [hvalue] at h
      by_cases hd : d < b
      · simp only [if_pos hd] at h
        rcases List.mem_cons.mp hc' with rfl | hmem
        · exact ⟨d, hd, hvalue⟩
        · exact ih h c' hmem
      · simp only [if_neg hd] at h
        cases h

/-- A character that is no digit does not occur in a numeral. -/
theorem notMem_numeral (hb : 1 < b) (h : ReadsDigits f value b) {c : Char} (hc : value c = none)
    (n : Nat) : c ∉ numeral f b n := by
  intro hmem
  obtain ⟨d, -, hd⟩ := value_of_readNumeral (readNumeral_numeral hb h n) c hmem
  rw [hc] at hd
  cases hd

/-- A numeral starts with a digit, and with that of zero only where it is the numeral of zero. -/
theorem numeral_eq_cons (hb : 1 < b) (n : Nat) :
    ∃ d < b, (d = 0 → n = 0) ∧ ∃ s, numeral f b n = f d.digitChar :: s := by
  induction n using Nat.strongRecOn with
  | ind n ih =>
    by_cases hn : n < b
    · exact ⟨n, hn, id, [], numeral_of_lt hn⟩
    · have hdiv : n / b < n := Nat.div_lt_self (by omega) hb
      obtain ⟨d, hd, hzero, s, hs⟩ := ih (n / b) hdiv
      refine ⟨d, hd, fun h0 => ?_, s ++ [f (n % b).digitChar], ?_⟩
      · have := Nat.div_pos (show b ≤ n by omega) (by omega)
        have := hzero h0
        omega
      · rw [numeral_of_le hb (by omega), hs, List.cons_append]

end Numeral

/-- A character other than the separator, in no field, is not in the text of the fields. -/
theorem notMem_intercalate {c sep : Char} (hc : c ≠ sep) :
    ∀ {fields : List (List Char)}, (∀ s ∈ fields, c ∉ s) → c ∉ [sep].intercalate fields
  | [], _ => by simp
  | [s], h => by
    rw [List.intercalate_singleton]
    exact h s List.mem_cons_self
  | s :: s' :: fields, h => by
    rw [List.intercalate_cons_cons, List.mem_append, List.mem_append, List.mem_singleton, not_or,
      not_or]
    refine ⟨⟨h s List.mem_cons_self, hc⟩, notMem_intercalate hc fun w hw => ?_⟩
    exact h w (List.mem_cons_of_mem _ hw)

end IkgtUsage.Lib
