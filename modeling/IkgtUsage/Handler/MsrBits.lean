import IkgtUsage.Handler.Outcome

/-!
# Which bits of RAX, RCX and RDX an MSR write event depends on

WRMSR reads the low halves of RAX, RCX and RDX only. The handler masks RAX and RDX, and it compares
slots with ECX, but its switch is on RCX: with a bit set in the high half it takes the default case
and allows the write. `visible_eq_iff` says exactly when two register contents with equal low halves
are handled alike.
-/

namespace IkgtUsage

open Framework Lib

/-! ## Low halves -/

/-- The low half of a register. -/
def low (x : U64) : U32 := x.truncate 32

theorem and_low_mask (x : U64) : x &&& 0xffffffff = (low x).zeroExtend 64 := by
  apply BitVec.eq_of_toNat_eq
  have hmask : x.toNat &&& (2 ^ 32 - 1) = x.toNat % 2 ^ 32 := Nat.and_two_pow_sub_one_eq_mod _ _
  have hlt : x.toNat % 2 ^ 32 < 2 ^ 64 := by omega
  unfold low
  rw [BitVec.toNat_and, BitVec.truncate_eq_setWidth, BitVec.zeroExtend_eq_setWidth,
    BitVec.toNat_setWidth, BitVec.toNat_setWidth, Nat.mod_eq_of_lt hlt]
  exact hmask

/-- The value written depends on the low halves. -/
theorem makeU64_low {hi hi' lo lo' : U64} (hhi : low hi = low hi') (hlo : low lo = low lo') :
    makeU64 hi lo = makeU64 hi' lo' := by
  unfold makeU64
  rw [and_low_mask, and_low_mask, and_low_mask, and_low_mask, hhi, hlo]

theorem zeroExtend_low {x : U64} (h : x.toNat < 2 ^ 32) : (low x).zeroExtend 64 = x := by
  apply BitVec.eq_of_toNat_eq
  unfold low
  rw [BitVec.zeroExtend_eq_setWidth, BitVec.toNat_setWidth, BitVec.truncate_eq_setWidth,
    BitVec.toNat_setWidth, Nat.mod_eq_of_lt h, Nat.mod_eq_of_lt x.isLt]

/-- The switch knows no register with a bit in the high half. -/
theorem msrSwitch_high {rcx : U64} (h : 2 ^ 32 ≤ rcx.toNat) : msrSwitch rcx = none := by
  have hne : ∀ msr : U32, rcx ≠ msr.zeroExtend 64 := by
    rintro msr rfl
    rw [BitVec.zeroExtend_eq_setWidth, BitVec.toNat_setWidth] at h
    have := Nat.mod_le msr.toNat (2 ^ 64)
    omega
  unfold msrSwitch
  rw [if_neg (hne _), if_neg (hne _), if_neg (hne _), if_neg (hne _), if_neg (hne _)]

/-- The switch knows the registers whose low half it knows and whose high half is zero. -/
theorem msrSwitch_isSome_iff (rcx : U64) :
    (msrSwitch rcx).isSome = true ↔
      rcx.toNat < 2 ^ 32 ∧ (msrSwitch ((low rcx).zeroExtend 64)).isSome = true := by
  by_cases h : rcx.toNat < 2 ^ 32
  · rw [zeroExtend_low h]
    exact ⟨fun hs => ⟨h, hs⟩, fun hs => hs.2⟩
  · rw [msrSwitch_high (by omega)]
    exact ⟨fun hs => absurd hs (by decide), fun hs => absurd hs.1 h⟩

/-! ## One event -/

/-- **What is seen of an MSR write event.** -/
theorem visible_handleMsrEvent {s : HandlerState} (hstart : s.fw.requests = 0) (ev : EventInfo) :
    (handleMsrEvent ev s).visible =
      if ¬ s.fw.env.FailedWithin 8 ∧ (msrSwitch (s.gp .rcx)).isSome = true then
        filteredMsr ev (low (s.gp .rcx)) (makeU64 (s.gp .rdx) (s.gp .rax)) s
      else s.untouched := by
  cases handleMsrEvent_cases hstart ev with
  | failed hv hf hmax =>
    obtain ⟨n, hn, hfail⟩ := hf
    rw [hv, if_neg fun h => h.1 ⟨n, lt_of_lt_of_le hn hmax, hfail⟩]
  | ignored hv hrcx => rw [hv, if_neg fun h => absurd h.2 (by rw [hrcx]; decide)]
  | filtered hok hrcx hv => rw [hv, if_pos ⟨hok, hrcx⟩]; rfl

/-- A slot that is counted up is not the slot it was. -/
theorem updateFirst_incAccessCount_ne {p : PolicyEntry → Bool} {slots : List PolicyEntry}
    (h : slots.any p = true) : updateFirst p PolicyEntry.incAccessCount slots ≠ slots := by
  obtain ⟨pre, x, post, hslots, -, hupd⟩ :=
    updateFirst_of_any (f := PolicyEntry.incAccessCount) h
  rw [hupd, hslots]
  intro heq
  have hx : x.incAccessCount = x := by
    have := List.append_cancel_left heq
    exact (List.cons.inj this).1
  have hcount : x.accessCount + 1 = x.accessCount := congrArg PolicyEntry.accessCount hx
  bv_omega

/-- The policy shows exactly when it has an entry for the register. -/
theorem filteredMsr_eq_untouched_iff (ev : EventInfo) (msrId : U32) (value : U64)
    (s : HandlerState) :
    filteredMsr ev msrId value s = s.untouched ↔ ∀ e ∈ s.slots, isMsrEntry msrId e = false := by
  have hnone : s.slots.find? (isMsrEntry msrId) = none ↔
      ∀ e ∈ s.slots, isMsrEntry msrId e = false := by
    rw [List.find?_eq_none]
    simp only [Bool.not_eq_true]
  rw [← hnone]
  unfold filteredMsr
  cases hfind : s.slots.find? (isMsrEntry msrId) with
  | none => simp
  | some entry =>
    simp only [HandlerState.untouched, Visible.mk.injEq, reduceCtorEq, iff_false, not_and]
    intro _ _ htable
    cases ht : s.gPolicyTable with
    | none =>
      unfold HandlerState.slots at hfind
      rw [ht] at hfind
      cases hfind
    | some t =>
      have hslots : s.slots = t.policyEntry := by simp [HandlerState.slots, ht]
      rw [ht, Option.map_some, Option.some_inj] at htable
      have heq := congrArg PolicyTable.policyEntry htable
      unfold PolicyTable.replaceSlots at heq
      rw [dif_pos (length_updateFirst _ _ _)] at heq
      rw [hslots] at hfind
      exact updateFirst_incAccessCount_ne (List.any_eq_true.mpr
        ⟨entry, List.mem_of_find?_eq_some hfind, List.find?_some hfind⟩) heq

/-! ## Two events -/

/-- The handler at the start of an event, with these guest registers. -/
def HandlerState.atEvent (s : HandlerState) (env : Surroundings) (reg : VmcsReg → U64) :
    HandlerState :=
  { s.entered env with fw := { s.fw.enter env with reg := reg } }

/-- What is seen of the event depends on the registers through the low halves, and through the
question whether the high half of RCX is zero. -/
theorem visible_atEvent (ev : EventInfo) (s : HandlerState) (env : Surroundings)
    (reg : VmcsReg → U64) :
    (handleMsrEvent ev (s.atEvent env reg)).visible =
      if ¬ env.FailedWithin 8 ∧ (reg (.gp .rcx)).toNat < 2 ^ 32 ∧
          (msrSwitch ((low (reg (.gp .rcx))).zeroExtend 64)).isSome = true then
        filteredMsr ev (low (reg (.gp .rcx))) (makeU64 (reg (.gp .rdx)) (reg (.gp .rax))) s
      else s.untouched := by
  have hsome := msrSwitch_isSome_iff ((s.atEvent env reg).gp .rcx)
  rw [visible_handleMsrEvent rfl]
  simp only [hsome]
  rfl

/-- **When the ignored bits are ignored.** For two register contents with equal low halves of RAX,
RCX and RDX, the event has the same response, log calls and table if and only if the high halves of
RCX are both zero or both nonzero, or ECX is not a register the switch knows, or one of the register
reads fails, or no slot is an entry for ECX. -/
theorem visible_eq_iff (ev : EventInfo) (s : HandlerState) (env : Surroundings)
    {reg reg' : VmcsReg → U64} (hrax : low (reg (.gp .rax)) = low (reg' (.gp .rax)))
    (hrcx : low (reg (.gp .rcx)) = low (reg' (.gp .rcx)))
    (hrdx : low (reg (.gp .rdx)) = low (reg' (.gp .rdx))) :
    (handleMsrEvent ev (s.atEvent env reg)).visible =
        (handleMsrEvent ev (s.atEvent env reg')).visible ↔
      ((reg (.gp .rcx)).toNat < 2 ^ 32 ↔ (reg' (.gp .rcx)).toNat < 2 ^ 32) ∨
        msrSwitch ((low (reg (.gp .rcx))).zeroExtend 64) = none ∨ env.FailedWithin 8 ∨
        ∀ e ∈ s.slots, isMsrEntry (low (reg (.gp .rcx))) e = false := by
  rw [visible_atEvent, visible_atEvent, makeU64_low hrdx hrax, hrcx,
    ← filteredMsr_eq_untouched_iff ev _ (makeU64 (reg' (.gp .rdx)) (reg' (.gp .rax))),
    ← Option.not_isSome_iff_eq_none]
  generalize filteredMsr ev _ _ s = seen
  by_cases hfail : env.FailedWithin 8
  · simp [hfail]
  by_cases hsome : (msrSwitch ((low (reg' (.gp .rcx))).zeroExtend 64)).isSome = true
  swap
  · simp [hsome]
  by_cases h : (reg (.gp .rcx)).toNat < 2 ^ 32 <;>
    by_cases h' : (reg' (.gp .rcx)).toNat < 2 ^ 32 <;>
    simp [hfail, hsome, h, h', eq_comm, -Nat.reducePow]

/-- EFER with SKIP: a write with a clean RCX and one with bit 32 of RCX set. -/
theorem visible_eq_iff_efer :
    let s := run (reportEvent false) (handlerInitialize (.boot .atBoot))
      [(PolicyMessage.about .policyEntryEnable .msrEfer policyActSkip 0).event]
    let reg := Function.update (fun _ => 0) (VmcsReg.gp .rcx) (0xC0000080 : U64)
    let reg' := Function.update (fun _ => 0) (VmcsReg.gp .rcx) (0x1C0000080 : U64)
    (handleMsrEvent ⟨0, 0, 0⟩ (s.atEvent .cooperative reg)).visible =
        (handleMsrEvent ⟨0, 0, 0⟩ (s.atEvent .cooperative reg')).visible ↔
      ((reg (.gp .rcx)).toNat < 2 ^ 32 ↔ (reg' (.gp .rcx)).toNat < 2 ^ 32) ∨
        msrSwitch ((low (reg (.gp .rcx))).zeroExtend 64) = none ∨
        Surroundings.cooperative.FailedWithin 8 ∨
        ∀ e ∈ s.slots, isMsrEntry (low (reg (.gp .rcx))) e = false :=
  visible_eq_iff _ _ _ rfl rfl rfl

/-- **The policy can be bypassed.** With bit 32 of RCX set the forbidden write is allowed. -/
theorem msr_policy_bypassed :
    let s := run (reportEvent false) (handlerInitialize (.boot .atBoot))
      [(PolicyMessage.about .policyEntryEnable .msrEfer policyActSkip 0).event]
    let reg := Function.update (fun _ => 0) (VmcsReg.gp .rcx) (0xC0000080 : U64)
    let reg' := Function.update (fun _ => 0) (VmcsReg.gp .rcx) (0x1C0000080 : U64)
    (∀ r, low (reg r) = low (reg' r)) ∧
      (handleMsrEvent ⟨0, 0, 0⟩ (s.atEvent .cooperative reg)).response = .redirect ∧
      (handleMsrEvent ⟨0, 0, 0⟩ (s.atEvent .cooperative reg')).response = .allow := by
  refine ⟨fun r => ?_, by decide +kernel, by decide +kernel⟩
  by_cases hr : r = .gp .rcx
  · rw [hr]
    decide
  · rw [Function.update_of_ne hr, Function.update_of_ne hr]

end IkgtUsage
