import IkgtUsage.Handler.GuestCr

/-!
# Room in the table

The table has one slot for each id in `[RESOURCE_ID_START, RESOURCE_ID_END)`. If only these ids took
slots there would always be room for one of them. But `policy_sanity_check` passes every message, so
any id can take a slot: `always_room_iff` says exactly when there is room for all resources, and
`junk_fills_table` fills the table with ids that stand for nothing.
-/

namespace IkgtUsage

open Framework Lib

/-! ## The ids of the resources -/

/-- The ids of the resources. -/
def resourceCodes : Finset U32 := (Finset.range policyMaxEntries).image fun n => .ofNat 32 (n + 1)

theorem mem_resourceCodes {id : U32} :
    id ∈ resourceCodes ↔ resourceIdStart ≤ id ∧ id < resourceIdEnd := by
  unfold resourceCodes resourceIdStart resourceIdEnd
  rw [Finset.mem_image, policyMaxEntries_eq]
  constructor
  · rintro ⟨n, hn, rfl⟩
    have hlt := Finset.mem_range.mp hn
    constructor <;> bv_omega
  · rintro ⟨hstart, hend⟩
    exact ⟨id.toNat - 1, Finset.mem_range.mpr (by bv_omega), by bv_omega⟩

theorem code_mem_resourceCodes (r : ResourceId) : r.code ∈ resourceCodes :=
  mem_resourceCodes.mpr r.code_bounds

theorem card_resourceCodes : resourceCodes.card = policyMaxEntries := by decide

/-! ## An ENABLE message -/

/-- `policy_msg_add` of a handler with a table. -/
theorem policyMsgAdd_eq {s : HandlerState} {t : PolicyTable} (ht : s.gPolicyTable = some t)
    {msg : PolicyUpdateRec} (hid : msg.resourceId ≠ resourceIdUnknown) :
    policyMsgAdd msg s =
      ((policySetMonitor (policyMsgToEntry msg s.fw.env.stackFlags) true s.fw).1,
        { s with
          gPolicyTable := some (policyEntryAdd t (policyMsgToEntry msg s.fw.env.stackFlags))
          fw := (policySetMonitor (policyMsgToEntry msg s.fw.env.stackFlags) true s.fw).2 }) := by
  unfold policyMsgAdd
  rw [ht]
  exact if_neg hid

/-- The slots after it. -/
theorem slots_policyMsgAdd {s : HandlerState} {t : PolicyTable} (ht : s.gPolicyTable = some t)
    {msg : PolicyUpdateRec} (hid : msg.resourceId ≠ resourceIdUnknown) :
    (policyMsgAdd msg s).2.slots =
      put PolicyEntry.resourceId resourceIdUnknown (policyMsgToEntry msg s.fw.env.stackFlags)
        s.slots := by
  rw [policyMsgAdd_eq ht hid]
  simp only [HandlerState.slots, ht]
  exact slots_policyEntryAdd t _

/-- The entry of the resource, if it has one. -/
def HandlerState.entryOf (s : HandlerState) (r : ResourceId) : Option PolicyEntry :=
  slotOf PolicyEntry.resourceId r.code s.slots

/-- The table has an entry for the message's id, with its actions and its sticky value. -/
def Holds (s : HandlerState) (msg : PolicyUpdateRec) : Prop :=
  ∃ e ∈ s.slots, e.resourceId = msg.resourceId ∧ e.rAction = msg.rAction ∧
    e.wAction = msg.wAction ∧ e.xAction = msg.xAction ∧ e.stickyVal = msg.stickyVal

instance (s : HandlerState) (msg : PolicyUpdateRec) : Decidable (Holds s msg) := by
  unfold Holds; infer_instance

/-- There is a slot for the id, or a free one. -/
def HasRoom (s : HandlerState) (id : U32) : Prop :=
  Room PolicyEntry.resourceId resourceIdUnknown id s.slots

/-- **One message.** Its entry is in the table afterwards exactly when there was room for it. -/
theorem holds_policyMsgAdd_iff {s : HandlerState} {t : PolicyTable} (ht : s.gPolicyTable = some t)
    {msg : PolicyUpdateRec} (hid : msg.resourceId ≠ resourceIdUnknown) :
    Holds (policyMsgAdd msg s).2 msg ↔ HasRoom s msg.resourceId := by
  unfold Holds
  rw [slots_policyMsgAdd ht hid]
  exact exists_mem_put_iff (e := policyMsgToEntry msg s.fw.env.stackFlags) hid
    ⟨rfl, rfl, rfl, rfl⟩

/-- The event that delivers an ENABLE message to a handler that is not immutable. -/
theorem holds_reportEvent_iff {debug : Bool} {s : HandlerState} {m : PolicyMap}
    (h : Refines s m) (himm : s.gPolicyImmutable = false) {e : Event} {msg : PolicyUpdateRec}
    (he : e.policyCommand debug = some (.enable msg))
    (hid : msg.resourceId ≠ resourceIdUnknown) :
    Holds (reportEvent debug s e) msg ↔ HasRoom s msg.resourceId := by
  obtain ⟨t, ht, -⟩ := h.table
  rcases reportEvent_cases debug s e with ⟨c, hc, -, -, heq⟩ | ⟨hno, -⟩
  · rw [he, Option.some_inj] at hc
    subst hc
    rw [heq]
    exact holds_policyMsgAdd_iff (s := s.received e) ht hid
  · rcases hno with hno | hinit | himm'
    · rw [he] at hno
      cases hno
    · rw [h.init] at hinit
      cases hinit
    · rw [himm] at himm'
      cases himm'

/-- The handler takes an ENABLE message for `id`: it is initialised, its policy is not immutable,
and there is a slot. -/
structure HandlerState.Ready (s : HandlerState) (id : U32) : Prop where
  init : s.gBInitStatus = true
  mutable : s.gPolicyImmutable = false
  room : HasRoom s id

/-- The entry after such a message. -/
theorem HandlerState.Ready.entryOf_reportEvent {s : HandlerState} {r : ResourceId}
    (h : s.Ready r.code) {debug : Bool} {e : Event} {msg : PolicyUpdateRec}
    (he : e.policyCommand debug = some (.enable msg)) (hid : msg.resourceId = r.code) :
    (reportEvent debug s e).entryOf r = some (policyMsgToEntry msg e.env.stackFlags) := by
  obtain ⟨t, ht⟩ : ∃ t, s.gPolicyTable = some t := by
    rw [← Option.isSome_iff_exists, ← Bool.not_eq_false, Option.isSome_eq_false_iff]
    intro hnone
    -- without a table there are no slots, and no room
    have hslots : s.slots = [] := by
      unfold HandlerState.slots
      rw [Option.isNone_iff_eq_none.mp hnone]
    have hroom := h.room
    rw [HasRoom, hslots] at hroom
    simp [Room, usedKeys] at hroom
  rcases reportEvent_cases debug s e with ⟨c, hc, -, -, heq⟩ | ⟨hno, -⟩
  · rw [he, Option.some_inj] at hc
    subst hc
    have hunknown : msg.resourceId ≠ resourceIdUnknown := hid ▸ r.code_ne_unknown
    have hroom : Room PolicyEntry.resourceId resourceIdUnknown msg.resourceId s.slots :=
      hid.symm ▸ h.room
    rw [heq, HandlerState.entryOf, ← hid]
    have hslots := slots_policyMsgAdd (s := s.received e) ht hunknown
    simp only [PolicyCommand.apply]
    rw [hslots]
    exact slotOf_put_self (e := policyMsgToEntry msg e.env.stackFlags) hroom
  · rcases hno with hno | hinit | himm
    · rw [he] at hno
      cases hno
    · rw [h.init] at hinit
      cases hinit
    · rw [h.mutable] at himm
      cases himm

/-! ## Room for all resources -/

/-- The slots in words: a slot is free, or all slots hold ids of resources. -/
theorem forall_hasRoom_iff {s : HandlerState} {m : PolicyMap} (h : Refines s m) :
    (∀ id ∈ resourceCodes, HasRoom s id) ↔
      (∃ x ∈ s.slots, x.resourceId = resourceIdUnknown) ∨
        ∀ x ∈ s.slots, resourceIdStart ≤ x.resourceId ∧ x.resourceId < resourceIdEnd := by
  obtain ⟨t, ht, hinv, -⟩ := h.table
  have hlength : resourceCodes.card = s.slots.length := by
    rw [card_resourceCodes, HandlerState.slots, ht]
    exact t.length_policyEntry.symm
  unfold HasRoom
  rw [forall_room_iff h.distinct hlength, ← any_free_iff, List.any_eq_true]
  simp only [decide_eq_true_eq]
  by_cases hfree : ∃ x ∈ s.slots, x.resourceId = resourceIdUnknown
  · exact iff_of_true (Or.inl hfree) (Or.inl hfree)
  · -- no slot is free, so the keys in use are the ids of all slots
    refine or_congr Iff.rfl ⟨fun hkeys x hx => ?_, fun hslots k hk => ?_⟩
    · have hused : x.resourceId ≠ resourceIdUnknown := fun hx' => hfree ⟨x, hx, hx'⟩
      exact mem_resourceCodes.mp (hkeys _ (mem_usedKeys.mpr ⟨hused, x, hx, rfl⟩))
    · obtain ⟨-, x, hx, rfl⟩ := mem_usedKeys.mp hk
      exact mem_resourceCodes.mpr (hslots x hx)

/-- An event that delivers a message, where nothing fails. -/
def PolicyUpdateRec.enableEvent (msg : PolicyUpdateRec) : Event :=
  PolicyMessage.event ⟨CommandCode.policyEntryEnable.code, 1, msg⟩

/-- **When there is always room.** In a reachable state that is not immutable, every ENABLE message
for an id in `[RESOURCE_ID_START, RESOURCE_ID_END)` leaves its entry in the table, if and only if a
slot is free or every slot holds an id of that range. -/
theorem always_room_iff {debug : Bool} {s : HandlerState} (hs : Reachable debug s)
    (himm : s.gPolicyImmutable = false) :
    (∀ (e : Event) (msg : PolicyUpdateRec), e.policyCommand debug = some (.enable msg) →
        resourceIdStart ≤ msg.resourceId → msg.resourceId < resourceIdEnd →
        Holds (reportEvent debug s e) msg) ↔
      (∃ x ∈ s.slots, x.resourceId = resourceIdUnknown) ∨
        ∀ x ∈ s.slots, resourceIdStart ≤ x.resourceId ∧ x.resourceId < resourceIdEnd := by
  obtain ⟨m, hm⟩ := hs.refines
  rw [← forall_hasRoom_iff hm]
  have hunknown : ∀ id ∈ resourceCodes, id ≠ resourceIdUnknown := by
    rintro id hid rfl
    exact absurd (mem_resourceCodes.mp hid).2 (by decide)
  refine ⟨fun h id hid => ?_, fun h e msg he hstart hend => ?_⟩
  · obtain ⟨hstart, hend⟩ := mem_resourceCodes.mp hid
    -- a message about the id, with nothing else in it
    have he : Event.policyCommand debug (PolicyUpdateRec.enableEvent
        ⟨id, 0, 0, 0, 0, ⟨0, 0, 0⟩⟩) = some (.enable ⟨id, 0, 0, 0, 0, ⟨0, 0, 0⟩⟩) := rfl
    exact (holds_reportEvent_iff hm himm he (hunknown id hid)).mp (h _ _ he hstart hend)
  · have hid := mem_resourceCodes.mpr ⟨hstart, hend⟩
    exact (holds_reportEvent_iff hm himm he (hunknown _ hid)).mpr (h _ hid)

/-- ENABLE messages for the ids `100, …, 100 + n - 1`, which stand for no resource. -/
def junk (n : Nat) : List Event :=
  (List.range n).map fun i =>
    PolicyUpdateRec.enableEvent ⟨.ofNat 32 (100 + i), 0, 0, 0, 0, ⟨0, 0, 0⟩⟩

/-- A handler with one slot left has room. -/
theorem always_room_iff_slot_left :
    let s := run (reportEvent false) (handlerInitialize (.boot .atBoot)) (junk 34)
    (∀ (e : Event) (msg : PolicyUpdateRec), e.policyCommand false = some (.enable msg) →
        resourceIdStart ≤ msg.resourceId → msg.resourceId < resourceIdEnd →
        Holds (reportEvent false s e) msg) ↔
      (∃ x ∈ s.slots, x.resourceId = resourceIdUnknown) ∨
        ∀ x ∈ s.slots, resourceIdStart ≤ x.resourceId ∧ x.resourceId < resourceIdEnd :=
  always_room_iff ⟨_, _, rfl, rfl⟩ (by decide +kernel)

/-- **The table can be filled with junk.** After 35 messages for ids that stand for nothing, the
policy for CR0.WP is not taken. -/
theorem junk_fills_table :
    let s := run (reportEvent false) (handlerInitialize (.boot .atBoot)) (junk 35)
    let msg : PolicyUpdateRec := ⟨ResourceId.cr0Wp.code, 0, policyActSkip, 0, 0, ⟨0, 0, 0⟩⟩
    s.gPolicyImmutable = false ∧ resourceIdStart ≤ msg.resourceId ∧
      msg.resourceId < resourceIdEnd ∧ ¬ Holds (reportEvent false s msg.enableEvent) msg := by
  decide +kernel

end IkgtUsage
