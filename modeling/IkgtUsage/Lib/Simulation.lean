import IkgtUsage.Lib.Run

/-!
# Simulation by a system with coarser or finer actions

A step of one system is matched by the list of actions that `acts` gives for it, which may be empty.
`trace` collects these over a run, and the invariant rule `Simulates.run` says that a relation kept
by every step relates the states after a run and after its trace.
-/

namespace IkgtUsage.Lib

variable {σ ι τ κ : Type*}

/-- The actions that match a run. -/
def trace (step : σ → ι → σ) (acts : σ → ι → List κ) : σ → List ι → List κ
  | _, [] => []
  | s, a :: as => acts s a ++ trace step acts (step s a) as

/-- Every step that `ok` admits keeps the relation to the states of the other system. -/
def Simulates (step : σ → ι → σ) (step' : τ → κ → τ) (acts : σ → ι → List κ)
    (ok : σ → ι → Prop) (R : σ → τ → Prop) : Prop :=
  ∀ s t a, R s t → ok s a → R (step s a) (run step' t (acts s a))

/-- **Simulation of runs.** -/
theorem Simulates.run {step : σ → ι → σ} {step' : τ → κ → τ} {acts : σ → ι → List κ}
    {ok : σ → ι → Prop} {R : σ → τ → Prop} (h : Simulates step step' acts ok R) :
    ∀ (as : List ι) {s : σ} {t : τ}, R s t → Steps step ok s as →
      R (Lib.run step s as) (Lib.run step' t (trace step acts s as))
  | [], _, _, hR, _ => hR
  | a :: as, s, t, hR, hok => by
    rw [trace, run_append]
    exact run h as (h s t a hR hok.1) hok.2

/-- Steps that give at most one action each. -/
theorem length_trace_le {step : σ → ι → σ} {acts : σ → ι → List κ}
    (h : ∀ s a, (acts s a).length ≤ 1) :
    ∀ (as : List ι) {s : σ}, (trace step acts s as).length ≤ as.length
  | [], _ => Nat.le_refl 0
  | a :: as, s => by
    rw [trace, List.length_append, List.length_cons, Nat.add_comm]
    exact Nat.add_le_add (length_trace_le h as) (h s a)

/-- The actions of one kind in a trace are the trace of that kind. -/
theorem filterMap_trace {κ' : Type*} {step : σ → ι → σ} {acts : σ → ι → List κ}
    (f : κ → Option κ') :
    ∀ (as : List ι) {s : σ},
      (trace step acts s as).filterMap f = trace step (fun s a => (acts s a).filterMap f) s as
  | [], _ => rfl
  | a :: as, s => by
    rw [trace, trace, List.filterMap_append, filterMap_trace f as]

/-- Steps with an action of their own, or none. -/
theorem trace_toList {step : σ → ι → σ} (act : ι → Option κ) :
    ∀ (as : List ι) {s : σ}, trace step (fun _ a => (act a).toList) s as = as.filterMap act
  | [], _ => rfl
  | a :: as, s => by
    rw [trace, trace_toList act as, List.filterMap_cons]
    cases act a with
    | none => rfl
    | some b => rfl

/-- Steps that are matched by themselves. -/
theorem trace_self {step : σ → ι → σ} :
    ∀ (as : List ι) {s : σ}, trace step (fun _ a => [a]) s as = as
  | [], _ => rfl
  | a :: as, s => by
    rw [trace, trace_self as, List.singleton_append]

/-- Two ways to match a step that agree on every admitted step agree on runs. -/
theorem trace_congr {step : σ → ι → σ} {acts acts' : σ → ι → List κ} {ok : σ → ι → Prop}
    (Inv : σ → Prop) (hkeep : ∀ s a, Inv s → ok s a → Inv (step s a))
    (heq : ∀ s a, Inv s → ok s a → acts s a = acts' s a) :
    ∀ (as : List ι) {s : σ}, Inv s → Steps step ok s as →
      trace step acts s as = trace step acts' s as
  | [], _, _, _ => rfl
  | a :: as, s, hinv, hok => by
    rw [trace, trace, heq s a hinv hok.1, trace_congr Inv hkeep heq as (hkeep s a hinv hok.1) hok.2]

end IkgtUsage.Lib
