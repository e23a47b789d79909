import Mathlib.Data.Sum.Basic

/-!
# Loops that leave

The body of a loop takes the loop's variables either to a result, with which the loop is left, or
to the variables of the next pass. `Ends body s r`: the loop entered with `s` is left with `r`. A
loop may never be left (`not_ends`), so that it is left at all is part of the total rule
`ends_of_measure`: an invariant, and a measure that every further pass makes smaller.
-/

namespace IkgtUsage.Lib

variable {σ ρ : Type*}

/-- The loop entered with `s` is left with the result `r`. -/
inductive Ends (body : σ → ρ ⊕ σ) : σ → ρ → Prop
  | leave {s : σ} {r : ρ} (h : body s = .inl r) : Ends body s r
  | again {s s' : σ} {r : ρ} (h : body s = .inr s') (hrest : Ends body s' r) : Ends body s r

variable {body : σ → ρ ⊕ σ}

/-- A loop has one result. -/
theorem Ends.unique {s : σ} {r r' : ρ} (h : Ends body s r) (h' : Ends body s r') : r = r' := by
  induction h with
  | leave hr =>
    cases h' with
    | leave hr' => exact Sum.inl.inj (hr.symm.trans hr')
    | again hs' => exact absurd (hr.symm.trans hs') Sum.inl_ne_inr
  | again hs hrest ih =>
    cases h' with
    | leave hr' => exact absurd (hs.symm.trans hr') Sum.inr_ne_inl
    | again hs' hrest' =>
      rw [Sum.inr.inj (hs.symm.trans hs')] at ih
      exact ih hrest'

theorem Ends.forall_iff {s : σ} {r : ρ} (h : Ends body s r) {P : ρ → Prop} :
    (∀ r', Ends body s r' → P r') ↔ P r :=
  ⟨fun hall => hall r h, fun hr _ h' => h.unique h' ▸ hr⟩

/-- A loop in which every pass goes on is never left. -/
theorem not_ends {Inv : σ → Prop} (hagain : ∀ s, Inv s → ∃ s', body s = .inr s' ∧ Inv s') {s : σ}
    (hinv : Inv s) (r : ρ) : ¬ Ends body s r := by
  intro h
  induction h with
  | leave hr =>
    obtain ⟨s', hs', -⟩ := hagain _ hinv
    exact Sum.inl_ne_inr (hr.symm.trans hs')
  | again hs _ ih =>
    obtain ⟨s', hs', hinv'⟩ := hagain _ hinv
    rw [Sum.inr.inj (hs'.symm.trans hs)] at hinv'
    exact ih hinv'

/-- **Total correctness of a loop.** -/
theorem ends_of_measure {Inv : σ → Prop} {Post : ρ → Prop} (μ : σ → Nat)
    (hleave : ∀ s r, Inv s → body s = .inl r → Post r)
    (hagain : ∀ s s', Inv s → body s = .inr s' → Inv s' ∧ μ s' < μ s) :
    ∀ s, Inv s → ∃ r, Ends body s r ∧ Post r := by
  intro s
  induction s using WellFounded.induction (measure μ).wf with
  | _ s ih =>
    intro hinv
    cases hs : body s with
    | inl r => exact ⟨r, .leave hs, hleave s r hinv hs⟩
    | inr s' =>
      obtain ⟨hinv', hlt⟩ := hagain s s' hinv hs
      obtain ⟨r, hr, hpost⟩ := ih s' hlt hinv'
      exact ⟨r, .again hs hr, hpost⟩

end IkgtUsage.Lib
