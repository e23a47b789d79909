import IkgtUsage.Handler.AllOrNothing
import IkgtUsage.Handler.GuestCr

/-!
# What a failing request does to a control register write

The handler reads the control register and the operand before it filters a write, and it writes the
operand register if the filtered value is not the current one. If a read fails the guest's value is
written as it is, and likewise if the operand register cannot be changed; a write that the policy
turns into none is skipped, which takes no request. `crAfter` is the value in each case
(`guestStep_crWrite_after`).
-/

namespace IkgtUsage

open Framework Lib

/-- A control register after a write of `new` over `cur`, of which the policy makes `filtered`. -/
def crAfter (env : Surroundings) (cur new filtered : U64) : U64 :=
  if env.FailedWithin 4 ∨ (env.FailedWithin 6 ∧ filtered ≠ cur) then new else filtered

/-- Where nothing fails, it is the filtered value. -/
theorem crAfter_of_success {env : Surroundings} (henv : ∀ n, env.outcome n = .success)
    (cur new filtered : U64) : crAfter env cur new filtered = filtered := by
  have hok : ∀ requests, ¬ env.FailedWithin requests := by
    rintro requests ⟨n, -, hn⟩
    exact hn (henv n)
  exact if_neg fun h => h.elim (hok 4) fun h => hok 6 h.1

/-- Failing among six requests: among the first four, or one of the last two. -/
theorem Surroundings.failedWithin_six {env : Surroundings} (hok : ¬ env.FailedWithin 4) :
    env.FailedWithin 6 ↔ ¬ (env.outcome 4 = .success ∧ env.outcome 5 = .success) := by
  constructor
  · rintro ⟨n, hn, hfail⟩ ⟨h4, h5⟩
    have hlast : n = 4 ∨ n = 5 := by
      have hnot : ¬ n < 4 := fun hlt => hok ⟨n, hlt, hfail⟩
      omega
    rcases hlast with rfl | rfl
    · exact hfail h4
    · exact hfail h5
  · intro hno
    by_cases h4 : env.outcome 4 = .success
    · exact ⟨5, by decide, fun h5 => hno ⟨h4, h5⟩⟩
    · exact ⟨4, by decide, h4⟩

/-- A log entry takes no request. -/
theorem requests_logEvent (threadId rip : U64) (s : HandlerState) :
    (logEvent threadId rip s).fw.requests = s.fw.requests := by
  unfold logEvent
  simp only
  split
  · rfl
  · split
    · rfl
    · rfl

/-- A register is written if the next two requests succeed. -/
theorem reg_writeGuestReg (regId : VmcsReg) (value : U64) (fw : Framework) :
    (writeGuestReg regId value fw).2.reg =
      if fw.NextTwoSucceed then Function.update fw.reg regId value else fw.reg := by
  unfold writeGuestReg
  simp only [ikgtMalloc, decide_eq_true_eq]
  by_cases hmalloc : fw.nextOutcome = .success
  · rw [if_pos hmalloc]
    have hnext : fw.NextTwoSucceed ↔ fw.tick.nextOutcome = .success := and_iff_right hmalloc
    unfold ikgtWriteGuestRegisters
    by_cases hwrite : fw.tick.nextOutcome = .success
    · rw [if_pos (hnext.mpr hwrite)]
      simp only [if_pos hwrite]
      rfl
    · rw [if_neg (mt hnext.mp hwrite)]
      simp only [if_neg hwrite]
      rfl
  · rw [if_neg hmalloc, if_neg fun h : fw.NextTwoSucceed => hmalloc h.1]
    rfl

/-! ## The event -/

section Event

variable {k : ControlReg} {s : HandlerState}

/-- **A write that is filtered** is skipped, or allowed with the operand register changed if it can
be. -/
theorem filterCrWrite_reg (hd : Distinct PolicyEntry.resourceId resourceIdUnknown s.slots)
    (hr : s.response = .allow) (ev : EventInfo) (operand : VmcsReg) :
    let cur := s.fw.reg k.vmcsReg
    let filtered := filteredCr k s.slots cur (s.fw.reg operand)
    let s' := filterCrWrite k ev operand cur (s.fw.reg operand) s
    (s'.response = .redirect ∧ filtered = cur ∧ s'.fw.reg = s.fw.reg) ∨
      (s'.response = .allow ∧ s'.fw.reg =
        if filtered = cur ∨ s.fw.NextTwoSucceed then Function.update s.fw.reg operand filtered
        else s.fw.reg) := by
  intro cur filtered s'
  by_cases hdiff : cur ^^^ s.fw.reg operand = 0
  · have hsame : cur = s.fw.reg operand := BitVec.xor_eq_zero_iff.mp hdiff
    have hs' : s' = s := if_pos hdiff
    have hfiltered : filtered = cur := by
      change filteredCr k s.slots cur (s.fw.reg operand) = cur
      rw [← hsame]
      exact filteredCr_self hd cur
    refine Or.inr ⟨hs' ▸ hr, ?_⟩
    rw [if_pos (Or.inl hfiltered), hs', hfiltered, hsame, Function.update_eq_self]
  -- the state after the slot loop and the log entry
  obtain ⟨r, hrun⟩ : ∃ r, r = crPolicyLoop k s.slots
      ⟨s.fw.reg operand, cur, cur ^^^ s.fw.reg operand, false⟩ := ⟨_, rfl⟩
  obtain ⟨slots, ctx⟩ := r
  obtain ⟨s1, hs1⟩ : ∃ s1, s1 = if ctx.log = true then logEvent ev.threadId ev.rip
      (s.withSlots slots) else s.withSlots slots := ⟨_, rfl⟩
  have hvalue : ctx.newCrValue = filtered := by
    change ctx.newCrValue = (crPolicyLoop k s.slots _).2.newCrValue
    rw [← hrun]
  have hs' : s' = if ctx.newCrValue = cur then { s1 with response := .redirect }
      else { s1 with
        fw := (writeGuestReg operand ctx.newCrValue s1.fw).2, response := .allow } := by
    change filterCrWrite k ev operand cur (s.fw.reg operand) s = _
    unfold filterCrWrite
    simp only
    rw [if_neg hdiff, ← hrun, hs1]
  have hreg : s1.fw.reg = s.fw.reg := by
    rw [hs1]
    split
    · exact reg_logEvent _ _ _
    · rfl
  have hnext : s1.fw.NextTwoSucceed ↔ s.fw.NextTwoSucceed := by
    have henv : s1.fw.env = s.fw.env ∧ s1.fw.requests = s.fw.requests := by
      rw [hs1]
      split
      · exact ⟨env_logEvent _ _ _, requests_logEvent _ _ _⟩
      · exact ⟨rfl, rfl⟩
    unfold NextTwoSucceed nextOutcome tick
    simp only [henv.1, henv.2]
  rw [hvalue] at hs'
  by_cases hcur : filtered = cur
  · rw [if_pos hcur] at hs'
    exact Or.inl ⟨hs' ▸ rfl, hcur, hs' ▸ hreg⟩
  · rw [if_neg hcur] at hs'
    refine Or.inr ⟨hs' ▸ rfl, ?_⟩
    rw [hs', reg_writeGuestReg, hreg]
    exact if_congr (hnext.trans (or_iff_right hcur).symm) rfl rfl

/-- A read has failed: nothing is changed and the write is allowed. -/
theorem handleCrEvent_unread (hstart : s.fw.requests = 0) (ev : EventInfo)
    (cpuinfo : CpuEventInfo) {operand : VmcsReg}
    (ho : getIkgtVmcsGuestRegId cpuinfo.operandReg = some operand)
    (hfail : s.fw.env.FailedWithin 4) :
    (handleCrEvent k ev cpuinfo s).response = .allow ∧
      (handleCrEvent k ev cpuinfo s).fw.reg = s.fw.reg := by
  have hknown : cpuinfo.operandReg ≠ .unknown := by
    intro h
    rw [h] at ho
    cases ho
  unfold handleCrEvent
  simp only
  rw [if_neg hknown]
  rcases readGuestReg_cases k.vmcsReg s.fw with ⟨h0, h1, hcur⟩ | ⟨hcur, -, -, hreg⟩
  swap
  · rw [if_pos hcur]
    exact ⟨rfl, hreg⟩
  simp only [hcur, ho, ne_eq, not_true_eq_false, if_false]
  rcases readGuestReg_cases operand s.fw.tick.tick with ⟨h2, h3, -⟩ | ⟨hnew, -, -, hreg⟩
  swap
  · rw [if_pos hnew]
    exact ⟨rfl, hreg⟩
  -- both reads have succeeded
  obtain ⟨n, hn, hfail⟩ := hfail
  simp only [nextOutcome, tick, hstart] at h0 h1 h2 h3
  have hn' : n = 0 ∨ n = 1 ∨ n = 2 ∨ n = 3 := by omega
  rcases hn' with rfl | rfl | rfl | rfl
  exacts [absurd h0 hfail, absurd h1 hfail, absurd h2 hfail, absurd h3 hfail]

/-- Both reads have succeeded: the write is filtered. -/
theorem handleCrEvent_read (hstart : s.fw.requests = 0) (ev : EventInfo)
    (cpuinfo : CpuEventInfo) {operand : VmcsReg}
    (ho : getIkgtVmcsGuestRegId cpuinfo.operandReg = some operand)
    (hok : ¬ s.fw.env.FailedWithin 4) :
    handleCrEvent k ev cpuinfo s = filterCrWrite k ev operand (s.fw.reg k.vmcsReg)
      (s.fw.reg operand) { s with response := .allow, fw := s.fw.tick.tick.tick.tick } := by
  have hknown : cpuinfo.operandReg ≠ .unknown := by
    intro h
    rw [h] at ho
    cases ho
  have hfailed : ∀ {fw : Framework}, fw.requests ≤ 4 → ¬ s.fw.env.FailedWithin fw.requests := by
    rintro fw hle ⟨n, hn, hfail⟩
    exact hok ⟨n, lt_of_lt_of_le hn hle, hfail⟩
  unfold handleCrEvent
  simp only
  rw [if_neg hknown]
  rcases readGuestReg_cases k.vmcsReg s.fw with ⟨-, -, hcur⟩ | ⟨-, hf, hmax, -⟩
  swap
  · exact absurd hf (hfailed (hmax.trans (by omega)))
  simp only [hcur, ho, ne_eq, not_true_eq_false, if_false]
  rcases readGuestReg_cases operand s.fw.tick.tick with ⟨-, -, hnew⟩ | ⟨-, hf, hmax, -⟩
  swap
  · have hticks : s.fw.tick.tick.requests + 2 ≤ 4 := by
      change s.fw.requests + 1 + 1 + 2 ≤ 4
      omega
    exact absurd hf (hfailed (hmax.trans hticks))
  simp only [hnew, not_true_eq_false, if_false]
  rfl

/-- **A control register write event**, whatever fails: the write is skipped, or it is allowed with
what `crAfter` says in the operand register. -/
theorem handleCrEvent_after (hd : Distinct PolicyEntry.resourceId resourceIdUnknown s.slots)
    (hstart : s.fw.requests = 0) (ev : EventInfo) (cpuinfo : CpuEventInfo) {operand : VmcsReg}
    (ho : getIkgtVmcsGuestRegId cpuinfo.operandReg = some operand) :
    let cur := s.fw.reg k.vmcsReg
    let new := s.fw.reg operand
    let value := crAfter s.fw.env cur new (filteredCr k s.slots cur new)
    let s' := handleCrEvent k ev cpuinfo s
    (s'.response = .redirect ∧ value = cur ∧ s'.fw.reg = s.fw.reg) ∨
      (s'.response = .allow ∧ s'.fw.reg = Function.update s.fw.reg operand value) := by
  intro cur new value s'
  by_cases hfail : s.fw.env.FailedWithin 4
  · obtain ⟨hr, hreg⟩ := handleCrEvent_unread (k := k) hstart ev cpuinfo ho hfail
    have hvalue : value = new := if_pos (Or.inl hfail)
    refine Or.inr ⟨hr, hreg.trans ?_⟩
    rw [hvalue, Function.update_eq_self]
  have hread := handleCrEvent_read (k := k) hstart ev cpuinfo ho hfail
  obtain ⟨s1, hs1⟩ : ∃ s1 : HandlerState,
      s1 = { s with response := .allow, fw := s.fw.tick.tick.tick.tick } := ⟨_, rfl⟩
  rw [← hs1] at hread
  have hreg1 : s1.fw.reg = s.fw.reg := by rw [hs1]; rfl
  have hslots1 : s1.slots = s.slots := by rw [hs1]; rfl
  have hnext : s1.fw.NextTwoSucceed ↔
      s.fw.env.outcome 4 = .success ∧ s.fw.env.outcome 5 = .success := by
    have hat : s1.fw.requests = 4 := by
      rw [hs1]
      change s.fw.requests + 1 + 1 + 1 + 1 = 4
      rw [hstart]
    have henv1 : s1.fw.env = s.fw.env := by rw [hs1]; rfl
    unfold NextTwoSucceed nextOutcome tick
    simp only [hat, henv1]
  have hcases := filterCrWrite_reg (k := k) (hslots1 ▸ hd) (hs1 ▸ rfl) ev operand
  simp only [hreg1, hslots1] at hcases
  rw [← hread] at hcases
  have hvalue : value = if filteredCr k s.slots cur new = cur ∨ s1.fw.NextTwoSucceed then
      filteredCr k s.slots cur new else new := by
    have hiff : (s.fw.env.FailedWithin 4 ∨
        (s.fw.env.FailedWithin 6 ∧ filteredCr k s.slots cur new ≠ cur)) ↔
          ¬ (filteredCr k s.slots cur new = cur ∨ s1.fw.NextTwoSucceed) := by
      rw [or_iff_right hfail, Surroundings.failedWithin_six hfail, hnext, not_or, and_comm]
    change (if _ then new else _) = _
    rw [if_congr hiff rfl rfl, ite_not]
  rcases hcases with ⟨hr, hv, hreg⟩ | ⟨hr, hreg⟩
  · exact Or.inl ⟨hr, hvalue.trans ((if_pos (Or.inl hv)).trans hv), hreg⟩
  · refine Or.inr ⟨hr, hreg.trans ?_⟩
    rw [hvalue]
    split
    · rfl
    · rw [Function.update_eq_self]

end Event

/-! ## The write -/

/-- The control registers when an allowed write has taken its operand register, which holds `v`. -/
theorem HandlerState.cr_allowed (s : HandlerState) (cr cr' : GuestCr) (v : U64) :
    (s.setReg cr.reg.vmcsReg v).cr cr' = if cr' = cr then v else s.cr cr' := by
  unfold HandlerState.cr HandlerState.setReg Framework.setReg
  simp only [Function.update_apply]
  exact if_congr ⟨GuestCr.vmcsReg_injective, fun h => h ▸ rfl⟩ rfl rfl

/-- Nor does it matter to them what a general register holds. -/
theorem HandlerState.cr_setGp (s : HandlerState) (r : GpReg) (v : U64) (cr : GuestCr) :
    (s.setReg (.gp r) v).cr cr = s.cr cr := Function.update_of_ne (cr.vmcsReg_ne_gp r) _ _

/-- **The control registers after a write**, whatever fails: the one written has the filtered value
or the one the guest has chosen, the other one its old value. -/
theorem guestStep_crWrite_after {s : HandlerState} (hinit : s.gBInitStatus = true)
    (hd : Distinct PolicyEntry.resourceId resourceIdUnknown s.slots) (debug : Bool)
    (cr : GuestCr) (operand : GpReg) (value : U64) (env : Surroundings) (info : EventInfo)
    (cr' : GuestCr) :
    (guestStep debug s (.crWrite cr operand value env info)).cr cr' =
      if cr' = cr then crAfter env (s.cr cr) value (filteredCr cr.reg s.slots (s.cr cr) value)
      else s.cr cr' := by
  have hset : (s.setReg (.gp operand) value).gBInitStatus = true := hinit
  unfold guestStep
  simp only
  rw [reportEvent_cr hset]
  -- the state the handler sees: the operand register set, everything else as it was
  obtain ⟨s0, hs0⟩ : ∃ s0, s0 = (s.setReg (.gp operand) value).entered env := ⟨_, rfl⟩
  have hslots : s0.slots = s.slots := by rw [hs0]; rfl
  have henv0 : s0.fw.env = env := by rw [hs0]; rfl
  have hstart : s0.fw.requests = 0 := by rw [hs0]; rfl
  have hcr : ∀ j : GuestCr, s0.fw.reg j.reg.vmcsReg = s.cr j := fun j => by
    rw [hs0]
    exact s.cr_setGp operand value j
  have hop : s0.fw.reg (.gp operand) = value := by
    rw [hs0]
    exact Function.update_self _ _ _
  rw [← hs0]
  have hcases := handleCrEvent_after (k := cr.reg) (hslots ▸ hd) hstart info
    ⟨.reg, cr.reg.eventReg, .gp operand⟩ rfl
  simp only [henv0, hslots, hcr, hop] at hcases
  generalize handleCrEvent cr.reg info _ s0 = s' at hcases ⊢
  generalize crAfter env (s.cr cr) value _ = after at hcases ⊢
  rcases hcases with ⟨hr, hafter, hreg⟩ | ⟨hr, hreg⟩
  · rw [hr, if_neg (by decide), hafter]
    split
    · rename_i h
      rw [HandlerState.cr, hreg, hcr, h]
    · rw [HandlerState.cr, hreg, hcr]
  · -- an allowed write takes the operand register
    have hother : s'.cr cr' = s.cr cr' := by
      rw [HandlerState.cr, hreg, Function.update_of_ne (cr'.vmcsReg_ne_gp operand), hcr]
    rw [hr, if_pos rfl, HandlerState.cr_allowed, hreg, Function.update_self, hother]

/-- A handler that is not initialised lets each write through. -/
theorem guestStep_crWrite_off {s : HandlerState} (hoff : ¬ s.gBInitStatus = true) (debug : Bool)
    (cr : GuestCr) (operand : GpReg) (value : U64) (env : Surroundings) (info : EventInfo)
    (cr' : GuestCr) :
    (guestStep debug s (.crWrite cr operand value env info)).cr cr' =
      if cr' = cr then value else s.cr cr' := by
  have hset : ¬ (s.setReg (.gp operand) value).gBInitStatus = true := hoff
  obtain ⟨s0, hs0⟩ : ∃ s0, s0 = (s.setReg (.gp operand) value).entered env := ⟨_, rfl⟩
  have hallow : s0.response = .allow := by rw [hs0]; rfl
  have hcr : s0.cr cr' = s.cr cr' := by
    rw [hs0]
    exact s.cr_setGp operand value cr'
  have hop : s0.fw.reg (.gp operand) = value := by
    rw [hs0]
    exact Function.update_self _ _ _
  unfold guestStep
  simp only [reportEvent_off hset]
  rw [← hs0, if_pos hallow, HandlerState.cr_allowed, hop, hcr]

end IkgtUsage
