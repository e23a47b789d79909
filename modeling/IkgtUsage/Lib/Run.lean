import Mathlib.Data.List.Basic

/-!
# Runs of a deterministic system

`run step s as` folds the actions `as` over the state `s`. `Steps` restricts a run to the steps
that meet a condition on the action and the state it is taken in. `run_inv` and `steps_inv` are
the invariant rules: what every (admitted) step preserves, every (admitted) run preserves.
-/

namespace IkgtUsage.Lib

variable {σ ι : Type*}

/-- The state after the actions `as`, taken in order. -/
def run (step : σ → ι → σ) (s : σ) (as : List ι) : σ := as.foldl step s

@[simp] theorem run_nil (step : σ → ι → σ) (s : σ) : run step s [] = s := rfl

@[simp] theorem run_cons (step : σ → ι → σ) (s : σ) (a : ι) (as : List ι) :
    run step s (a :: as) = run step (step s a) as := rfl

theorem run_append (step : σ → ι → σ) (s : σ) (as bs : List ι) :
    run step s (as ++ bs) = run step (run step s as) bs := List.foldl_append

/-- **Invariant rule.** -/
theorem run_inv {step : σ → ι → σ} (Inv : σ → Prop) (hstep : ∀ s a, Inv s → Inv (step s a)) :
    ∀ (as : List ι) {s : σ}, Inv s → Inv (run step s as)
  | [], _, h => h
  | a :: as, s, h => run_inv Inv hstep as (hstep s a h)

/-- **Invariant rule for runs of certain actions.** -/
theorem run_inv_of_forall {step : σ → ι → σ} {P : ι → Prop} (Inv : σ → Prop)
    (hstep : ∀ s a, Inv s → P a → Inv (step s a)) :
    ∀ (as : List ι) {s : σ}, Inv s → (∀ a ∈ as, P a) → Inv (run step s as)
  | [], _, h, _ => h
  | a :: as, s, h, hall =>
    run_inv_of_forall Inv hstep as (hstep s a h (hall a List.mem_cons_self)) fun b hb =>
      hall b (List.mem_cons_of_mem a hb)

/-- Every step of the run is admitted by `ok` in the state it is taken in. -/
def Steps (step : σ → ι → σ) (ok : σ → ι → Prop) : σ → List ι → Prop
  | _, [] => True
  | s, a :: as => ok s a ∧ Steps step ok (step s a) as

instance Steps.decidable {step : σ → ι → σ} {ok : σ → ι → Prop} [∀ s a, Decidable (ok s a)] :
    (s : σ) → (as : List ι) → Decidable (Steps step ok s as)
  | _, [] => inferInstanceAs (Decidable True)
  | s, a :: as =>
    have : Decidable (Steps step ok (step s a) as) := Steps.decidable (step s a) as
    inferInstanceAs (Decidable (ok s a ∧ Steps step ok (step s a) as))

theorem steps_append {step : σ → ι → σ} {ok : σ → ι → Prop} :
    ∀ {s : σ} {as bs : List ι},
      Steps step ok s (as ++ bs) ↔ Steps step ok s as ∧ Steps step ok (run step s as) bs
  | _, [], _ => by simp [Steps]
  | s, a :: as, bs => by
    simp only [List.cons_append, Steps, run_cons]
    rw [steps_append, and_assoc]

/-- Actions that are admitted in every state make an admitted run. -/
theorem steps_of_forall {step : σ → ι → σ} {ok : σ → ι → Prop} {P : ι → Prop}
    (h : ∀ s a, P a → ok s a) :
    ∀ (as : List ι) {s : σ}, (∀ a ∈ as, P a) → Steps step ok s as
  | [], _, _ => trivial
  | a :: as, s, hall =>
    ⟨h s a (hall a List.mem_cons_self),
      steps_of_forall h as fun b hb => hall b (List.mem_cons_of_mem a hb)⟩

/-- A run that is admitted twice. -/
theorem Steps.and {step : σ → ι → σ} {ok ok' : σ → ι → Prop} :
    ∀ {as : List ι} {s : σ}, Steps step ok s as → Steps step ok' s as →
      Steps step (fun s a => ok s a ∧ ok' s a) s as
  | [], _, _, _ => trivial
  | _ :: _, _, hok, hok' => ⟨⟨hok.1, hok'.1⟩, hok.2.and hok'.2⟩

/-- A condition on the actions alone can be added. -/
theorem Steps.and_forall {step : σ → ι → σ} {ok : σ → ι → Prop} {P : ι → Prop} {as : List ι}
    {s : σ} (hok : Steps step ok s as) (hall : ∀ a ∈ as, P a) :
    Steps step (fun s a => ok s a ∧ P a) s as :=
  hok.and (steps_of_forall (fun _ _ h => h) as hall)

/-- **Invariant rule for admitted runs.** -/
theorem steps_inv {step : σ → ι → σ} {ok : σ → ι → Prop} (Inv : σ → Prop)
    (hstep : ∀ s a, Inv s → ok s a → Inv (step s a)) :
    ∀ (as : List ι) {s : σ}, Inv s → Steps step ok s as → Inv (run step s as)
  | [], _, h, _ => h
  | a :: as, s, h, hok => steps_inv Inv hstep as (hstep s a h hok.1) hok.2

/-- **Rule for what an admitted run changes**: a reflexive and transitive relation between the state
before and the state after. -/
theorem steps_rel {step : σ → ι → σ} {ok : σ → ι → Prop} (Inv : σ → Prop) {R : σ → σ → Prop}
    (hrefl : ∀ s, R s s) (htrans : ∀ {s t u}, R s t → R t u → R s u)
    (hstep : ∀ s a, Inv s → ok s a → Inv (step s a) ∧ R s (step s a)) :
    ∀ (as : List ι) {s : σ}, Inv s → Steps step ok s as → R s (run step s as)
  | [], s, _, _ => hrefl s
  | a :: as, s, h, hok =>
    htrans (hstep s a h hok.1).2
      (steps_rel Inv hrefl htrans hstep as (hstep s a h hok.1).1 hok.2)

/-- **Rule for a flag that is never cleared**: it is set after a run if it was before, or one of the
steps has set it. -/
theorem run_latch {step : σ → ι → σ} {ok : σ → ι → Prop} (Inv : σ → Prop) (flag : σ → Prop)
    (sets : σ → ι → Prop) (hkeep : ∀ s a, Inv s → ok s a → Inv (step s a))
    (hflag : ∀ s a, Inv s → ok s a → (flag (step s a) ↔ flag s ∨ sets s a)) :
    ∀ (as : List ι) {s : σ}, Inv s → Steps step ok s as →
      (flag (run step s as) ↔
        flag s ∨ ∃ before a after, as = before ++ a :: after ∧ sets (run step s before) a)
  | [], s, _, _ => by simp
  | a :: as, s, h, hok => by
    rw [run_cons, run_latch Inv flag sets hkeep hflag as (hkeep s a h hok.1) hok.2,
      hflag s a h hok.1, or_assoc]
    refine or_congr_right ⟨?_, ?_⟩
    · rintro (hset | ⟨before, b, after, rfl, hset⟩)
      · exact ⟨[], a, as, rfl, hset⟩
      · exact ⟨a :: before, b, after, rfl, hset⟩
    · rintro ⟨before, b, after, heq, hset⟩
      cases before with
      | nil =>
        obtain ⟨rfl, rfl⟩ := List.cons.inj heq
        exact Or.inl hset
      | cons c before =>
        obtain ⟨rfl, rfl⟩ := List.cons.inj heq
        exact Or.inr ⟨before, b, after, rfl, hset⟩

/-- **The last one counts.** Where each action sets the keys that it covers, a key has after a run
what the last action that covers it has set. -/
theorem run_last {κ β : Type*} {step : σ → ι → σ} (get : σ → κ → β) (covers : ι → κ → Bool)
    (value : ι → β)
    (hstep : ∀ s a k, get (step s a) k = if covers a k = true then value a else get s k) (k : κ) :
    ∀ (as : List ι) (s : σ), get (run step s as) k =
      ((as.findRev? fun a => covers a k).map value).getD (get s k)
  | [], _ => rfl
  | a :: as, s => by
    rw [run_cons, run_last get covers value hstep k as, hstep, List.findRev?]
    cases as.findRev? fun a => covers a k with
    | some b => rfl
    | none =>
      cases covers a k with
      | true => rfl
      | false => rfl

/-- **Two conditions that agree on every step agree on runs.** The steps are those of a domain
`dom`; the agreement may use an invariant, which the steps that are `good` keep. -/
theorem steps_congr {step : σ → ι → σ} {dom good ok : σ → ι → Prop} (Inv : σ → Prop)
    (hiff : ∀ s a, Inv s → dom s a → (good s a ↔ ok s a))
    (hkeep : ∀ s a, Inv s → dom s a → good s a → Inv (step s a)) :
    ∀ (as : List ι) {s : σ}, Inv s → Steps step dom s as →
      (Steps step good s as ↔ Steps step ok s as)
  | [], _, _, _ => Iff.rfl
  | a :: as, s, h, hdom => by
    have hstep := hiff s a h hdom.1
    constructor
    · rintro ⟨hgood, hrest⟩
      have hnext := hkeep s a h hdom.1 hgood
      exact ⟨hstep.mp hgood, (steps_congr Inv hiff hkeep as hnext hdom.2).mp hrest⟩
    · rintro ⟨hok, hrest⟩
      have hnext := hkeep s a h hdom.1 (hstep.mpr hok)
      exact ⟨hstep.mpr hok, (steps_congr Inv hiff hkeep as hnext hdom.2).mpr hrest⟩

end IkgtUsage.Lib
