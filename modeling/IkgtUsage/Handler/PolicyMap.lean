import IkgtUsage.Handler.Frame
import IkgtUsage.Lib.Run

/-!
# The policy as a finite map

What the policy table is for: a finite map from resource id to policy, frozen for good by
MAKE_IMMUTABLE. `PolicyMap` is that map with its flag, and `PolicyMap.receive` what a policy
command does to it. No slots, no counter, no scan loops.

The handler refines it: `Refines` relates a handler to a map, every event keeps the relation
(`Refines.reportEvent`), hence so does every run (`handler_refines_policyMap`). An immutable
handler is a special case worth its own statement: nothing but access counts changes any more
(`immutable_forever`).
-/

namespace IkgtUsage

open Framework Lib

/-! ## The abstract policy -/

/-- The policy: at most `POLICY_MAX_ENTRIES` ids, and whether it is frozen. -/
structure PolicyMap where
  map : Finmap fun _ : U32 => Policy
  immutable : Bool

/-- The policy at start. -/
def PolicyMap.empty : PolicyMap := ⟨∅, false⟩

/-- What a policy command does. -/
def PolicyMap.receive (m : PolicyMap) (c : PolicyCommand) : PolicyMap :=
  if m.immutable then m
  else
    match c with
    | .enable msg =>
      if msg.resourceId = resourceIdUnknown then m
      else { m with map := insertBounded policyMaxEntries msg.resourceId msg.policy m.map }
    | .disable msg => { m with map := m.map.erase msg.resourceId }
    | .makeImmutable => { m with immutable := true }

/-- What an event does: only a delivered policy command counts. -/
def PolicyMap.step (debug : Bool) (m : PolicyMap) (e : Event) : PolicyMap :=
  match e.policyCommand debug with
  | some c => m.receive c
  | none => m

/-! ## Frame steps keep the map -/

theorem ids_of_withoutCount {xs ys : List PolicyEntry}
    (h : xs.map PolicyEntry.withoutCount = ys.map PolicyEntry.withoutCount) :
    xs.map PolicyEntry.resourceId = ys.map PolicyEntry.resourceId := by
  have := congrArg (List.map PolicyEntry.resourceId) h
  rwa [List.map_map, List.map_map] at this

theorem policies_of_withoutCount {xs ys : List PolicyEntry}
    (h : xs.map PolicyEntry.withoutCount = ys.map PolicyEntry.withoutCount) :
    xs.map (fun e => (e.resourceId, e.policy)) = ys.map fun e => (e.resourceId, e.policy) := by
  have := congrArg (List.map fun e => (e.resourceId, e.policy)) h
  rwa [List.map_map, List.map_map] at this

/-- A frame step of a handler with a table leaves a table with the same counter and slots. -/
theorem PolicyFrame.table {s s' : HandlerState} (h : PolicyFrame s s') {t : PolicyTable}
    (ht : s.gPolicyTable = some t) :
    ∃ t', s'.gPolicyTable = some t' ∧ t'.numEntries = t.numEntries ∧
      t'.policyEntry.map PolicyEntry.withoutCount = t.policyEntry.map PolicyEntry.withoutCount := by
  have hnum := h.numEntries
  have hslots := h.slots
  rw [ht] at hnum
  cases ht' : s'.gPolicyTable with
  | none => rw [ht'] at hnum; cases hnum
  | some t' =>
    rw [ht', Option.map_some, Option.map_some, Option.some_inj] at hnum
    simp only [HandlerState.slots, ht, ht'] at hslots
    exact ⟨t', rfl, hnum, hslots⟩

theorem TableInv.congr {t t' : PolicyTable} (h : TableInv t) (hnum : t'.numEntries = t.numEntries)
    (hslots : t'.policyEntry.map PolicyEntry.withoutCount =
      t.policyEntry.map PolicyEntry.withoutCount) : TableInv t' := by
  have hkeys : usedKeys PolicyEntry.resourceId resourceIdUnknown t'.policyEntry =
      usedKeys PolicyEntry.resourceId resourceIdUnknown t.policyEntry :=
    usedKeys_congr (ids_of_withoutCount hslots)
  refine ⟨?_, ?_⟩
  · unfold Distinct
    rw [hkeys]
    exact h.distinct
  · rw [hnum, hkeys, h.count]

theorem PolicyTable.toMap_congr {t t' : PolicyTable}
    (hslots : t'.policyEntry.map PolicyEntry.withoutCount =
      t.policyEntry.map PolicyEntry.withoutCount) : t'.toMap = t.toMap :=
  Lib.toMap_congr PolicyEntry.policy (policies_of_withoutCount hslots)

/-! ## The refinement -/

/-- The handler `s` holds the policy `m`. -/
structure Refines (s : HandlerState) (m : PolicyMap) : Prop where
  init : s.gBInitStatus = true
  table : ∃ t, s.gPolicyTable = some t ∧ TableInv t ∧ t.toMap = m.map
  immutable : s.gPolicyImmutable = m.immutable

namespace Refines

variable {s s' : HandlerState} {m : PolicyMap}

/-- `handler_initialize`, where the table can be allocated. -/
theorem handlerInitialize {fw : Framework} (h : fw.nextOutcome = .success) :
    Refines (handlerInitialize (.boot fw)) .empty := by
  have hs : IkgtUsage.handlerInitialize (.boot fw) =
      { HandlerState.boot fw with
        gBInitStatus := true, gPolicyTable := some .initial, fw := fw.tick } := by
    simp [IkgtUsage.handlerInitialize, policyInitialize, HandlerState.boot, ikgtMalloc, h]
  rw [hs]
  exact ⟨rfl, ⟨_, rfl, tableInv_initial, toMap_initial⟩, rfl⟩

/-- A frame step. -/
theorem frame (h : Refines s m) (hf : PolicyFrame s s') : Refines s' m := by
  obtain ⟨t, ht, hinv, hmap⟩ := h.table
  obtain ⟨t', ht', hnum, hslots⟩ := hf.table ht
  exact ⟨hf.init.trans h.init,
    ⟨t', ht', hinv.congr hnum hslots, (PolicyTable.toMap_congr hslots).trans hmap⟩,
    hf.immutable.trans h.immutable⟩

/-- A policy command. -/
theorem apply (h : Refines s m) (hm : m.immutable = false) (c : PolicyCommand) :
    Refines (c.apply s) (m.receive c) := by
  obtain ⟨t, ht, hinv, hmap⟩ := h.table
  have himm : s.gPolicyImmutable = false := h.immutable.trans hm
  unfold PolicyMap.receive
  rw [hm]
  cases c with
  | enable msg =>
    simp only [PolicyCommand.apply, policyMsgAdd, ht, Bool.false_eq_true, if_false]
    by_cases hid : msg.resourceId = resourceIdUnknown
    · rw [if_pos hid, if_pos hid]
      exact h
    · rw [if_neg hid, if_neg hid]
      refine ⟨h.init, ⟨_, rfl, hinv.add hid, ?_⟩, himm⟩
      rw [hinv.toMap_add hid, hmap]
      rfl
  | disable msg =>
    simp only [PolicyCommand.apply, policyMsgDel, ht, Bool.false_eq_true, if_false]
    by_cases hid : msg.resourceId = resourceIdUnknown
    · rw [if_pos hid]
      -- no slot holds the id UNKNOWN, so there is nothing to erase
      have habsent : resourceIdUnknown ∉ m.map := by
        rw [← hmap, PolicyTable.toMap, mem_toMap, mem_usedKeys]
        exact fun hmem => hmem.1 rfl
      have herase : m.map.erase msg.resourceId = m.map := by
        rw [hid]
        exact Finmap.ext_lookup fun id => by
          by_cases hi : id = resourceIdUnknown
          · rw [hi, Finmap.lookup_erase, Finmap.lookup_eq_none.mpr habsent]
          · rw [Finmap.lookup_erase_ne hi]
      exact ⟨h.init, ⟨t, ht, hinv, hmap.trans herase.symm⟩, himm⟩
    · rw [if_neg hid]
      refine ⟨h.init, ⟨_, rfl, hinv.del hid, ?_⟩, himm⟩
      rw [hinv.toMap_del hid, hmap]
      rfl
  | makeImmutable => exact ⟨h.init, ⟨t, ht, hinv, hmap⟩, rfl⟩

/-- **One event.** -/
theorem reportEvent (h : Refines s m) (debug : Bool) (e : Event) :
    Refines (reportEvent debug s e) (m.step debug e) := by
  unfold PolicyMap.step
  rcases reportEvent_cases debug s e with ⟨c, hc, -, himm, heq⟩ | ⟨hnone, hframe⟩
  · rw [hc, heq]
    have hr : Refines (s.received e) m := h.frame ⟨rfl, rfl, rfl, rfl, rfl⟩
    exact hr.apply (h.immutable ▸ himm) c
  · have hsame : (match e.policyCommand debug with
        | some c => m.receive c
        | none => m) = m := by
      rcases hnone with hnone | hinit | himm
      · rw [hnone]
      · rw [h.init] at hinit
        cases hinit
      · cases e.policyCommand debug with
        | none => rfl
        | some c => exact if_pos (h.immutable ▸ himm)
    rw [hsame]
    exact h.frame hframe

/-- **A run of events.** -/
theorem run (debug : Bool) : ∀ (events : List Event) {s : HandlerState} {m : PolicyMap},
    Refines s m → Refines (Lib.run (IkgtUsage.reportEvent debug) s events)
      (Lib.run (PolicyMap.step debug) m events)
  | [], _, _, h => h
  | e :: events, _, _, h => run debug events (h.reportEvent debug e)

end Refines

/-- A run of an immutable handler is a frame step. -/
theorem immutable_frame (debug : Bool) {s : HandlerState} (h : s.gPolicyImmutable = true)
    (events : List Event) : PolicyFrame s (run (reportEvent debug) s events) := by
  refine run_inv (PolicyFrame s) (fun s' e hf => ?_) events (.refl s)
  rcases reportEvent_cases debug s' e with ⟨c, -, -, himm, -⟩ | ⟨-, hframe⟩
  · rw [hf.immutable, h] at himm
    cases himm
  · exact hf.trans hframe

/-- **The slot table implements the bounded map.** After any events the occupied slots have
distinct ids, `num_entries` counts them and stays in bounds, and read as a map they are the
reference map of the policy commands delivered. -/
theorem handler_refines_policyMap (debug : Bool) {fw : Framework}
    (halloc : fw.nextOutcome = .success) (events : List Event) :
    ∃ t, (run (reportEvent debug) (handlerInitialize (.boot fw)) events).gPolicyTable = some t ∧
      Distinct PolicyEntry.resourceId resourceIdUnknown t.policyEntry ∧
      t.numEntries.toNat = (t.policyEntry.filter fun e => e.resourceId ≠ resourceIdUnknown).length ∧
      t.numEntries.toNat ≤ policyMaxEntries ∧
      t.toMap = (run (PolicyMap.step debug) .empty events).map := by
  obtain ⟨t, ht, hinv, hmap⟩ := (Refines.handlerInitialize halloc).run debug events |>.table
  refine ⟨t, ht, hinv.distinct, ?_, hinv.numEntries_le, hmap⟩
  rw [hinv.count, usedKeys, List.filter_map, List.length_map]
  rfl

/-- The refinement at a run: EFER is protected, then the policy frozen. -/
theorem handler_refines_policyMap_efer :
    let events := [(PolicyMessage.about .policyEntryEnable .msrEfer policyActSkip 0).event,
      (PolicyMessage.about .policyMakeImmutable .msrEfer 0 0).event]
    ∃ t, (run (reportEvent false) (handlerInitialize (.boot .atBoot)) events).gPolicyTable =
        some t ∧
      Distinct PolicyEntry.resourceId resourceIdUnknown t.policyEntry ∧
      t.numEntries.toNat = (t.policyEntry.filter fun e => e.resourceId ≠ resourceIdUnknown).length ∧
      t.numEntries.toNat ≤ policyMaxEntries ∧
      t.toMap = (run (PolicyMap.step false) .empty events).map :=
  @handler_refines_policyMap false .atBoot rfl _

/-! ## The frozen policy -/

/-- **An immutable policy stays as it is.** Whatever events follow, with whatever outcomes, the
flag stays set, `num_entries` and every field of every slot but the access counts stay the same,
and no monitoring call is made. -/
theorem immutable_forever (debug : Bool) {s : HandlerState} (h : s.gPolicyImmutable = true)
    (events : List Event) :
    let s' := run (reportEvent debug) s events
    s'.gPolicyImmutable = true ∧
      s'.gPolicyTable.map PolicyTable.numEntries = s.gPolicyTable.map PolicyTable.numEntries ∧
      s'.slots.map PolicyEntry.withoutCount = s.slots.map PolicyEntry.withoutCount ∧
      s'.fw.monitorCalls = s.fw.monitorCalls := by
  have hframe : PolicyFrame s (run (reportEvent debug) s events) := immutable_frame debug h events
  exact ⟨hframe.immutable.trans h, hframe.numEntries, hframe.slots, hframe.monitors⟩

/-- The frozen policy of a handler that protects EFER, after a message that would drop it. -/
theorem immutable_forever_efer :
    let s := run (reportEvent false) (handlerInitialize (.boot .atBoot))
      [(PolicyMessage.about .policyEntryEnable .msrEfer policyActSkip 0).event,
        (PolicyMessage.about .policyMakeImmutable .msrEfer 0 0).event]
    let s' := run (reportEvent false) s
      [(PolicyMessage.about .policyEntryDisable .msrEfer 0 0).event]
    s'.gPolicyImmutable = true ∧
      s'.gPolicyTable.map PolicyTable.numEntries = s.gPolicyTable.map PolicyTable.numEntries ∧
      s'.slots.map PolicyEntry.withoutCount = s.slots.map PolicyEntry.withoutCount ∧
      s'.fw.monitorCalls = s.fw.monitorCalls :=
  immutable_forever false rfl _

end IkgtUsage
