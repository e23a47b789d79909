import IkgtUsage.Handler.Outcome

/-!
# The guest's control registers under an immutable policy

The guest puts a value into a general register and writes it to CR0 or CR4; the handler is asked
first. If it allows the write, the control register takes what the operand register then holds, and
if it redirects the write, the control register stays. Between writes the guest may send the
handler any message.

A step is determined bit by bit (`guestStep_bit`): a bit with an entry becomes what the entry
settles. As the entries of an immutable policy stay, so does the protection, over runs of any
length (`protected_bits`).
-/

namespace IkgtUsage

open Framework Lib

/-! ## The guest -/

/-- The two registers the handler watches. -/
inductive GuestCr
  | cr0 | cr4
  deriving DecidableEq, Repr

/-- The policy code of the register. -/
def GuestCr.reg : GuestCr → ControlReg
  | cr0 => IkgtUsage.cr0
  | cr4 => IkgtUsage.cr4

/-- What the guest does. -/
inductive GuestStep
  | crWrite (cr : GuestCr) (operand : GpReg) (value : U64) (env : Surroundings) (info : EventInfo)
  | message (content : PolicyMessage) (env : Surroundings) (info : EventInfo)

/-- No request of a register write event fails. -/
def GuestStep.NoFailure : GuestStep → Prop
  | crWrite _ _ _ env _ => ∀ n, env.outcome n = .success
  | message .. => True

/-- A guest register takes a value. -/
def HandlerState.setReg (s : HandlerState) (reg : VmcsReg) (value : U64) : HandlerState :=
  { s with fw := s.fw.setReg reg value }

/-- One step of guest and handler. -/
def guestStep (debug : Bool) (s : HandlerState) : GuestStep → HandlerState
  | .crWrite cr operand value env info =>
    let s := s.setReg (.gp operand) value
    let s := reportEvent debug s ⟨env, info, .cpu ⟨.reg, cr.reg.eventReg, .gp operand⟩⟩
    if s.response = .allow then s.setReg cr.reg.vmcsReg (s.fw.reg (.gp operand))
    else s
  | .message content env info => reportEvent debug s ⟨env, info, .msg content⟩

/-- The value of a control register. -/
def HandlerState.cr (s : HandlerState) (cr : GuestCr) : U64 := s.fw.reg cr.reg.vmcsReg

/-- A state the handler reaches from its initialisation by events. -/
def Reachable (debug : Bool) (s : HandlerState) : Prop :=
  ∃ (fw : Framework) (events : List Event), fw.nextOutcome = .success ∧
    s = run (reportEvent debug) (handlerInitialize (.boot fw)) events

theorem Reachable.refines {debug : Bool} {s : HandlerState} (h : Reachable debug s) :
    ∃ m, Refines s m := by
  obtain ⟨fw, events, halloc, rfl⟩ := h
  exact ⟨_, (Refines.handlerInitialize halloc).run debug events⟩

theorem Refines.distinct {s : HandlerState} {m : PolicyMap} (h : Refines s m) :
    Distinct PolicyEntry.resourceId resourceIdUnknown s.slots := by
  obtain ⟨t, ht, hinv, -⟩ := h.table
  unfold HandlerState.slots
  rw [ht]
  exact hinv.distinct

/-! ## One step -/

/-- A register write event of an initialised handler is the handler of that register. -/
theorem reportEvent_cr {s : HandlerState} (hinit : s.gBInitStatus = true) (debug : Bool)
    (cr : GuestCr) (operandReg : IkgtCpuReg) (env : Surroundings) (info : EventInfo) :
    reportEvent debug s ⟨env, info, .cpu ⟨.reg, cr.reg.eventReg, operandReg⟩⟩ =
      handleCrEvent cr.reg info ⟨.reg, cr.reg.eventReg, operandReg⟩ (s.entered env) := by
  rw [reportEvent_eq hinit]
  cases cr <;> rfl

theorem GuestCr.vmcsReg_injective {cr cr' : GuestCr} (h : cr.reg.vmcsReg = cr'.reg.vmcsReg) :
    cr = cr' := by
  cases cr <;> cases cr' <;> first | rfl | cases h

theorem GuestCr.vmcsReg_ne_gp (cr : GuestCr) (r : GpReg) : cr.reg.vmcsReg ≠ .gp r := by
  intro h
  cases cr <;> cases h

/-- **The control registers after a write**: the one written has the filtered value, the other one
its old value. -/
theorem guestStep_crWrite {s : HandlerState} (hinit : s.gBInitStatus = true)
    (hd : Distinct PolicyEntry.resourceId resourceIdUnknown s.slots) (debug : Bool)
    (cr : GuestCr) (operand : GpReg) (value : U64) {env : Surroundings}
    (henv : ∀ n, env.outcome n = .success) (info : EventInfo) (cr' : GuestCr) :
    (guestStep debug s (.crWrite cr operand value env info)).cr cr' =
      if cr' = cr then filteredCr cr.reg s.slots (s.cr cr) value else s.cr cr' := by
  have hset : (s.setReg (.gp operand) value).gBInitStatus = true := hinit
  unfold guestStep
  simp only
  rw [reportEvent_cr hset]
  -- the state the handler sees: the operand register set, everything else as it was
  obtain ⟨s0, hs0⟩ : ∃ s0, s0 = (s.setReg (.gp operand) value).entered env := ⟨_, rfl⟩
  have hslots : s0.slots = s.slots := by rw [hs0]; rfl
  have henv0 : s0.fw.env = env := by rw [hs0]; rfl
  have hcr : ∀ j : GuestCr, s0.fw.reg j.reg.vmcsReg = s.cr j := fun j => by
    rw [hs0]
    exact Function.update_of_ne (j.vmcsReg_ne_gp operand) _ _
  have hop : s0.fw.reg (.gp operand) = value := by
    rw [hs0]
    exact Function.update_self _ _ _
  rw [← hs0]
  have hcases := handleCrEvent_cases (k := cr.reg) (hslots ▸ hd) info
    ⟨.reg, cr.reg.eventReg, .gp operand⟩ rfl
  generalize handleCrEvent cr.reg info _ s0 = s' at hcases ⊢
  cases hcases with
  | redirected hr hv hreg =>
    rw [hr, if_neg (by decide)]
    rw [hslots, hcr, hop] at hv
    by_cases h : cr' = cr
    · rw [if_pos h, hv, HandlerState.cr, hreg, hcr, h]
    · rw [if_neg h, HandlerState.cr, hreg, hcr]
  | allowed hr hreg =>
    rw [hslots, hcr, hop] at hreg
    rw [hr, if_pos rfl]
    simp only [HandlerState.cr, HandlerState.setReg, setReg, hreg, Function.update_self]
    by_cases h : cr' = cr
    · rw [if_pos h, h, Function.update_self]
    · rw [if_neg h, Function.update_of_ne fun heq => h (GuestCr.vmcsReg_injective heq),
        Function.update_of_ne (cr'.vmcsReg_ne_gp operand), hcr]
      rfl
  | failed hr hf hreg =>
    obtain ⟨n, -, hn⟩ := hf
    exact absurd (henv0 ▸ henv n) hn

/-- A message to an immutable handler changes no register. -/
theorem guestStep_message {s : HandlerState} (hinit : s.gBInitStatus = true)
    (himm : s.gPolicyImmutable = true) (debug : Bool) (content : PolicyMessage)
    (env : Surroundings) (info : EventInfo) :
    (guestStep debug s (.message content env info)).fw.reg = s.fw.reg := by
  have hmsg := handleMsgEvent_entered debug ⟨env, info, .msg content⟩ content s
  simp only at hmsg
  simp only [guestStep, reportEvent_eq hinit, hmsg]
  split
  · split
    · rw [dispatchMsg_eq]
      split
      · exact reg_startLog _ _ _
      · split
        · have hr : (s.received ⟨env, info, .msg content⟩).gPolicyImmutable = true := himm
          rw [if_pos hr]
          rfl
        · rfl
    · rfl
  · rfl

/-! ## Protection -/

/-- A guest step leaves an immutable policy as it is. -/
theorem PolicyFrame.guestStep {s : HandlerState} (himm : s.gPolicyImmutable = true) (debug : Bool)
    (g : GuestStep) : PolicyFrame s (guestStep debug s g) := by
  cases g with
  | crWrite cr operand value env info =>
    have hset : PolicyFrame s (s.setReg (.gp operand) value) := ⟨rfl, rfl, rfl, rfl, rfl⟩
    have hevent := hset.trans (immutable_frame debug (s := s.setReg (.gp operand) value) himm
      [⟨env, info, .cpu ⟨.reg, cr.reg.eventReg, .gp operand⟩⟩])
    unfold IkgtUsage.guestStep
    simp only
    split
    · exact hevent.trans ⟨rfl, rfl, rfl, rfl, rfl⟩
    · exact hevent
  | message content env info =>
    exact immutable_frame debug himm [⟨env, info, .msg content⟩]

/-- What the entry `e` makes of its bit, in a state change from `old` to `new`. -/
structure PolicyEntry.Protects (e : PolicyEntry) (old new : Bool) : Prop where
  sticky : e.hasSticky = true →
    (old = e.stickyVal.getLsbD 0 → new = e.stickyVal.getLsbD 0) ∧
      (new ≠ old → new = e.stickyVal.getLsbD 0)
  skip : e.hasSticky = false → e.wHasSkip = true → new = old

namespace PolicyEntry.Protects

variable {e : PolicyEntry} {old mid new : Bool}

theorem refl (e : PolicyEntry) (old : Bool) : e.Protects old old :=
  ⟨fun _ => ⟨id, fun h => absurd rfl h⟩, fun _ _ => rfl⟩

theorem trans (h : e.Protects old mid) (h' : e.Protects mid new) : e.Protects old new where
  sticky hs := by
    refine ⟨fun hold => (h'.sticky hs).1 ((h.sticky hs).1 hold), fun hne => ?_⟩
    by_cases hmid : mid = old
    · exact (h'.sticky hs).2 (hmid ▸ hne)
    · exact (h'.sticky hs).1 ((h.sticky hs).2 hmid)
  skip hs hk := (h'.skip hs hk).trans (h.skip hs hk)

/-- What an entry settles, it protects. -/
theorem settle (e : PolicyEntry) (cur new : Bool) : e.Protects cur (e.settle cur new) := by
  unfold PolicyEntry.settle
  split
  · exact refl e cur
  · refine ⟨fun hs => ?_, fun hs hk => ?_⟩
    · rw [if_pos hs]
      exact ⟨fun _ => rfl, fun _ => rfl⟩
    · rw [hs, if_neg Bool.false_ne_true, if_pos hk]

/-- Protection depends on the policy of the entry only. -/
theorem congr {e' : PolicyEntry} (hp : e'.withoutCount = e.withoutCount)
    (h : e.Protects old new) : e'.Protects old new := by
  have hw : e'.withoutCount.wAction = e.withoutCount.wAction := by rw [hp]
  have hv : e'.withoutCount.stickyVal = e.withoutCount.stickyVal := by rw [hp]
  change e'.wAction = e.wAction at hw
  change e'.stickyVal = e.stickyVal at hv
  have hs : e'.hasSticky = e.hasSticky := by unfold hasSticky; rw [hw]
  have hk : e'.wHasSkip = e.wHasSkip := by unfold wHasSkip; rw [hw]
  exact ⟨fun h' => hv ▸ h.sticky (hs ▸ h'), fun h' h'' => h.skip (hs ▸ h') (hk ▸ h'')⟩

end PolicyEntry.Protects

/-- A handler whose policy is frozen and holds the entry `e`. -/
structure Guarded (e : PolicyEntry) (s : HandlerState) : Prop where
  init : s.gBInitStatus = true
  immutable : s.gPolicyImmutable = true
  distinct : Distinct PolicyEntry.resourceId resourceIdUnknown s.slots
  entry : ∃ e' ∈ s.slots, e'.withoutCount = e.withoutCount

namespace Guarded

variable {e : PolicyEntry} {s s' : HandlerState} {debug : Bool}

theorem ofReachable (h : Reachable debug s) (himm : s.gPolicyImmutable = true)
    (he : e ∈ s.slots) : Guarded e s := by
  obtain ⟨m, hm⟩ := h.refines
  exact ⟨hm.init, himm, hm.distinct, e, he, rfl⟩

theorem frame (h : Guarded e s) (hf : PolicyFrame s s') : Guarded e s' := by
  refine ⟨hf.init.trans h.init, hf.immutable.trans h.immutable, ?_, ?_⟩
  · have hkeys : usedKeys PolicyEntry.resourceId resourceIdUnknown s'.slots =
        usedKeys PolicyEntry.resourceId resourceIdUnknown s.slots :=
      usedKeys_congr (ids_of_withoutCount hf.slots)
    unfold Distinct
    rw [hkeys]
    exact h.distinct
  · obtain ⟨e', he', hpol⟩ := h.entry
    have hmem : e'.withoutCount ∈ s'.slots.map PolicyEntry.withoutCount :=
      hf.slots ▸ List.mem_map_of_mem he'
    obtain ⟨e'', he'', heq⟩ := List.mem_map.mp hmem
    exact ⟨e'', he'', heq.trans hpol⟩

theorem guestStep (h : Guarded e s) (debug : Bool) (g : GuestStep) :
    Guarded e (guestStep debug s g) := h.frame (.guestStep h.immutable debug g)

/-- **One step protects the bit of an entry.** -/
theorem protects_step (h : Guarded e s) (debug : Bool) {g : GuestStep} (hg : g.NoFailure)
    {cr : GuestCr} {b : Nat} (hb : cr.reg.BitOf b e.resourceId) :
    e.Protects ((s.cr cr).getLsbD b) (((IkgtUsage.guestStep debug s g).cr cr).getLsbD b) := by
  obtain ⟨e', he', hpol⟩ := h.entry
  have hid : e'.withoutCount.resourceId = e.withoutCount.resourceId := by rw [hpol]
  have hb' : cr.reg.BitOf b e'.resourceId := by
    change e'.resourceId = e.resourceId at hid
    rwa [hid]
  cases g with
  | message content env info =>
    unfold HandlerState.cr
    rw [guestStep_message h.init h.immutable]
    exact .refl e _
  | crWrite cr' operand value env info =>
    rw [guestStep_crWrite h.init h.distinct debug cr' operand value hg info cr]
    split
    · rename_i hcr
      subst hcr
      rw [filteredCr_bit h.distinct he' hb']
      exact .congr hpol.symm (.settle e' _ _)
    · exact .refl e _

/-- **A run protects the bit of an entry.** -/
theorem protects_run (debug : Bool) {cr : GuestCr} {b : Nat} (hb : cr.reg.BitOf b e.resourceId) :
    ∀ (steps : List GuestStep) {s : HandlerState}, Guarded e s → (∀ g ∈ steps, g.NoFailure) →
      e.Protects ((s.cr cr).getLsbD b)
        (((run (IkgtUsage.guestStep debug) s steps).cr cr).getLsbD b)
  | [], _, _, _ => .refl e _
  | g :: steps, _, h, hok =>
    (h.protects_step debug (hok g List.mem_cons_self) hb).trans
      (protects_run debug hb steps (h.guestStep debug g) fun g' hg' =>
        hok g' (List.mem_cons_of_mem g hg'))

end Guarded

/-- **Protected control register bits never change.** From a reachable state with an immutable
policy, let the guest take the steps `before` and then the steps `after`. A bit whose resource has
an entry with STICKY keeps the sticky value once it has it, and changes to nothing else; with SKIP
and no STICKY it does not change. -/
theorem protected_bits {debug : Bool} {s : HandlerState} (hs : Reachable debug s)
    (himm : s.gPolicyImmutable = true) {e : PolicyEntry} (he : e ∈ s.slots) {cr : GuestCr}
    {b : Nat} (hb : cr.reg.BitOf b e.resourceId) (before after : List GuestStep)
    (hok : ∀ g ∈ before ++ after, g.NoFailure) :
    let old := ((run (guestStep debug) s before).cr cr).getLsbD b
    let new := ((run (guestStep debug) s (before ++ after)).cr cr).getLsbD b
    let stickyBit := (e.stickyVal &&& 1).getLsbD 0
    (e.hasSticky = true → (old = stickyBit → new = stickyBit) ∧ (new ≠ old → new = stickyBit)) ∧
      (e.hasSticky = false → e.wHasSkip = true → new = old) := by
  have hguard : Guarded e (run (guestStep debug) s before) :=
    run_inv (Guarded e) (fun _ g h => h.guestStep debug g) before (.ofReachable hs himm he)
  have hprotect := hguard.protects_run debug hb after fun g hg =>
    hok g (List.mem_append_right before hg)
  have hbit : (e.stickyVal &&& 1).getLsbD 0 = e.stickyVal.getLsbD 0 := by simp
  rw [run_append, hbit]
  exact ⟨hprotect.sticky, hprotect.skip⟩

/-- The write-protect bit of CR0, kept by SKIP against a write of zero. -/
theorem protected_bits_wp :
    let s := run (reportEvent false)
      (handlerInitialize (.boot (Framework.atBoot.setReg .cr0 0x10000)))
      [(PolicyMessage.about .policyEntryEnable .cr0Wp policyActSkip 0).event,
        (PolicyMessage.about .policyMakeImmutable .cr0Wp 0 0).event]
    let clear : GuestStep := .crWrite .cr0 .rax 0 .cooperative ⟨0, 0, 0⟩
    ((run (guestStep false) s [clear]).cr .cr0).getLsbD 16 = (s.cr .cr0).getLsbD 16 :=
  (@protected_bits false _ ⟨_, _, rfl, rfl⟩ rfl
    (policyMsgToEntry (PolicyMessage.about .policyEntryEnable .cr0Wp policyActSkip 0).policyData 0)
    (by decide +kernel) .cr0 16 (by decide) [] _
    (by simp [GuestStep.NoFailure, Surroundings.cooperative])).2 (by decide) (by decide)

end IkgtUsage
