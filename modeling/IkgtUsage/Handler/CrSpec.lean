import IkgtUsage.Handler.GuestCr
import IkgtUsage.Handler.MsrBits

/-!
# Control register writes against their specification

What a write to CR0 or CR4 should come to, bit by bit and in terms of the policy map alone: where
the current and the new value differ, the policy of the bit's resource decides. `CrSpec` says so,
and says which entries are counted and whether the event is logged; no slot order occurs in it.
The handlers meet it where no request fails (`handleCrEvent_spec`).
-/

namespace IkgtUsage

open Framework Lib

/-! ## The specification -/

/-- The policy of each id in the table. -/
def HandlerState.policies (s : HandlerState) : Finmap fun _ : U32 => Policy :=
  Lib.toMap PolicyEntry.resourceId resourceIdUnknown PolicyEntry.policy s.slots

/-- `POLICY_ENTRY_HAS_STICKY`, of the policy of an entry. -/
def Policy.hasSticky (p : Policy) : Bool := p.wAction &&& policyActSticky ≠ 0

/-- `POLICY_ENTRY_W_HAS_SKIP`, of the policy of an entry. -/
def Policy.wHasSkip (p : Policy) : Bool := p.wAction &&& policyActSkip ≠ 0

/-- The id of the resource that bit `b` is. -/
def ControlReg.resourceOf (k : ControlReg) (b : Nat) : Option U32 :=
  (k.maskTable.find? fun row => row.mask.getLsbD b).map fun row => row.resourceId.code

/-- The policy of bit `b`. -/
def ControlReg.policyOf (k : ControlReg) (policies : Finmap fun _ : U32 => Policy) (b : Nat) :
    Option Policy :=
  (k.resourceOf b).bind policies.lookup

/-- Bit `b` of the value that a write of `new` over `cur` comes to. -/
def specBit (k : ControlReg) (policies : Finmap fun _ : U32 => Policy) (cur new : U64) (b : Nat) :
    Bool :=
  if cur.getLsbD b = new.getLsbD b then new.getLsbD b
  else
    match k.policyOf policies b with
    | none => new.getLsbD b
    | some p =>
      if p.hasSticky then p.stickyVal.getLsbD 0
      else if p.wHasSkip then cur.getLsbD b
      else new.getLsbD b

/-- The entry is of a bit in which the values differ. -/
def Differs (k : ControlReg) (cur new : U64) (e : PolicyEntry) : Prop :=
  ∃ b < 64, k.BitOf b e.resourceId ∧ cur.getLsbD b ≠ new.getLsbD b

instance (k : ControlReg) (cur new : U64) (e : PolicyEntry) : Decidable (Differs k cur new e) := by
  unfold Differs; infer_instance

/-- What a write of `new` over `cur` through the register `operand` comes to, from `s` to `s'`,
where the value that takes effect is `final`. -/
structure CrSpec (k : ControlReg) (info : EventInfo) (operand : VmcsReg) (cur new : U64)
    (s s' : HandlerState) (final : U64) : Prop where
  value : ∀ b < 64, final.getLsbD b = specBit k s.policies cur new b
  /-- The write would change nothing: it is skipped and no register is written. -/
  redirected : final = cur →
    s'.response = .redirect ∧ s'.fw.reg = s.fw.reg ∧ s'.fw.calls = s.fw.calls
  /-- Else the operand register is set, and no other. -/
  allowed : final ≠ cur →
    s'.response = .allow ∧ s'.fw.reg = Function.update s.fw.reg operand final ∧
      s'.fw.calls = (.writeGuestRegisters operand final, .success) :: s.fw.calls
  /-- One call of `log_event`, if the entry of a differing bit has LOG. -/
  logged : s'.logEvents =
    if ∃ e ∈ s.slots, Differs k cur new e ∧ e.wHasLog = true then
      ⟨info.threadId, info.rip⟩ :: s.logEvents
    else s.logEvents
  /-- The entries of the differing bits are counted up. -/
  counted : s'.slots = s.slots.map fun e => if Differs k cur new e then e.incAccessCount else e
  frame : PolicyFrame s s'

/-! ## The slots and the map -/

/-- `handle_cr0_event` or `handle_cr4_event`. -/
def GuestCr.handleEvent : GuestCr → EventInfo → CpuEventInfo → HandlerState → HandlerState
  | cr0 => handleCr0Event
  | cr4 => handleCr4Event

theorem GuestCr.handleEvent_eq (cr : GuestCr) : cr.handleEvent = handleCrEvent cr.reg := by
  cases cr <;> rfl

/-- The mask of a row's id is the row's mask: no id occurs twice. -/
theorem GuestCr.resIdToMask_row (cr : GuestCr) : ∀ row ∈ cr.reg.maskTable,
    cr.reg.resIdToMask row.resourceId.code = row.mask.zeroExtend 64 := by
  cases cr with
  | cr0 => decide
  | cr4 => decide

/-- A bit of the register is the resource that its row names. -/
theorem GuestCr.bitOf_iff (cr : GuestCr) (b : Nat) (id : U32) :
    cr.reg.BitOf b id ↔ cr.reg.resourceOf b = some id := by
  unfold ControlReg.resourceOf
  rw [Option.map_eq_some_iff]
  constructor
  · intro h
    obtain ⟨row, hrow, hid, hmask, hb⟩ := ControlReg.resIdToMask_eq h
    have hbit : row.mask.getLsbD b = true := by
      rw [hmask]
      unfold BIT
      simp [hb]
    have hsome : (cr.reg.maskTable.find? fun row => row.mask.getLsbD b).isSome = true := by
      rw [List.find?_isSome]
      exact ⟨row, hrow, hbit⟩
    obtain ⟨row', hrow'⟩ := Option.isSome_iff_exists.mp hsome
    refine ⟨row', hrow', ?_⟩
    have hbit' : cr.reg.BitOf b row'.resourceId.code := by
      unfold ControlReg.BitOf
      rw [cr.resIdToMask_row row' (List.mem_of_find?_eq_some hrow')]
      have hfound : row'.mask.getLsbD b = true := by simpa using List.find?_some hrow'
      rw [BitVec.zeroExtend_eq_setWidth, BitVec.getLsbD_setWidth, hfound]
      simpa using (show b < 64 by omega)
    exact hbit'.unique h
  · rintro ⟨row, hrow, rfl⟩
    have hbit : row.mask.getLsbD b = true := by simpa using List.find?_some hrow
    have hb : b < 32 := BitVec.lt_of_getLsbD hbit
    unfold ControlReg.BitOf
    rw [cr.resIdToMask_row row (List.mem_of_find?_eq_some hrow), BitVec.zeroExtend_eq_setWidth,
      BitVec.getLsbD_setWidth, hbit]
    simpa using (show b < 64 by omega)

/-- The slot that owns a bit holds the policy of the bit. -/
theorem GuestCr.policyOf_eq (cr : GuestCr) (s : HandlerState) (b : Nat) :
    (s.slots.find? fun e => cr.reg.BitOf b e.resourceId).map PolicyEntry.policy =
      cr.reg.policyOf s.policies b := by
  unfold ControlReg.policyOf
  cases hr : cr.reg.resourceOf b with
  | none =>
    have hnone : (s.slots.find? fun e => cr.reg.BitOf b e.resourceId) = none := by
      rw [List.find?_eq_none]
      intro e _ hbit
      have := (cr.bitOf_iff b e.resourceId).mp (by simpa using hbit)
      rw [hr] at this
      cases this
    rw [hnone]
    rfl
  | some id =>
    have hkey : (fun e : PolicyEntry => decide (cr.reg.BitOf b e.resourceId)) =
        fun e => decide (e.resourceId = id) := by
      funext e
      rw [decide_eq_decide, cr.bitOf_iff, hr, Option.some_inj, eq_comm]
    have hid : id ≠ resourceIdUnknown := ((cr.bitOf_iff b id).mpr hr).ne_unknown
    rw [hkey, Option.bind_some, HandlerState.policies, lookup_toMap PolicyEntry.policy hid]
    rfl

/-- **The filtered value is the specified one.** -/
theorem GuestCr.filteredCr_spec (cr : GuestCr) {s : HandlerState}
    (hd : Distinct PolicyEntry.resourceId resourceIdUnknown s.slots) (cur new : U64) (b : Nat) :
    (filteredCr cr.reg s.slots cur new).getLsbD b = specBit cr.reg s.policies cur new b := by
  unfold filteredCr specBit
  rw [filtered_bit hd, ← cr.policyOf_eq]
  cases s.slots.find? fun e => cr.reg.BitOf b e.resourceId with
  | none => simp
  | some e =>
    simp only [Option.map_some]
    by_cases h : cur.getLsbD b = new.getLsbD b
    · rw [if_pos h, if_pos h, h]
    · rw [if_neg h, if_neg h]
      rfl

/-- The slots the loop acts on are those of the differing bits. -/
theorem touched_iff {k : ControlReg} (cur new : U64) (e : PolicyEntry) :
    touched k (cur ^^^ new) e = true ↔ Differs k cur new e := by
  have hdiff : ∀ b, (cur ^^^ new).getLsbD b = false ↔ cur.getLsbD b = new.getLsbD b := by
    intro b
    rw [BitVec.getLsbD_xor]
    cases cur.getLsbD b <;> cases new.getLsbD b <;> simp
  unfold touched Differs
  rw [decide_eq_true_eq]
  constructor
  · rintro ⟨-, hentry, hmask⟩
    obtain ⟨n, hn, heq, hbit⟩ := ControlReg.exists_bitNo hentry
    rw [heq, ne_eq, twoPow_and_eq_zero_iff hn, hdiff] at hmask
    exact ⟨n, hn, (hbit n).mpr rfl, hmask⟩
  · rintro ⟨b, hb, hbit, hne⟩
    refine ⟨hbit.ne_unknown, hbit.isEntry, ?_⟩
    obtain ⟨n, hn, heq, hown⟩ := ControlReg.exists_bitNo hbit.isEntry
    obtain rfl := (hown b).mp hbit
    rw [heq, ne_eq, twoPow_and_eq_zero_iff hn, hdiff]
    exact hne

/-! ## Where no request fails -/

/-- A register read. -/
theorem readGuestReg_ok (fw : Framework) (hok : ∀ n, fw.env.outcome n = .success)
    (regId : VmcsReg) : readGuestReg regId fw = (.success, fw.reg regId, fw.tick.tick) := by
  rcases readGuestReg_cases regId fw with ⟨-, -, h⟩ | ⟨-, ⟨n, -, hn⟩, -⟩
  · exact h
  · exact absurd (hok n) hn

/-- A register write. -/
theorem writeGuestReg_ok (fw : Framework) (hok : ∀ n, fw.env.outcome n = .success)
    (regId : VmcsReg) (value : U64) :
    (writeGuestReg regId value fw).2.reg = Function.update fw.reg regId value ∧
      (writeGuestReg regId value fw).2.calls =
        (.writeGuestRegisters regId value, .success) :: fw.calls := by
  have h0 : fw.nextOutcome = .success := hok _
  have h1 : fw.tick.nextOutcome = .success := hok _
  unfold writeGuestReg ikgtWriteGuestRegisters
  simp only [ikgtMalloc, h0, h1, decide_true, if_true]
  exact ⟨rfl, rfl⟩

/-- `log_event` is recorded, and changes nothing else but the log area. -/
theorem logEvent_eq (threadId rip : U64) (s : HandlerState) :
    ∃ hostLog, logEvent threadId rip s =
      { s with
        logEvents := ⟨threadId, rip⟩ :: s.logEvents
        fw := { s.fw with hostLog := hostLog } } := by
  unfold logEvent
  simp only
  split
  · exact ⟨s.fw.hostLog, rfl⟩
  · split
    · exact ⟨s.fw.hostLog, rfl⟩
    · exact ⟨_, rfl⟩

/-- A control register write event, up to the filter. -/
theorem handleCrEvent_ok {k : ControlReg} {s : HandlerState}
    (hok : ∀ n, s.fw.env.outcome n = .success) (info : EventInfo) (cpuinfo : CpuEventInfo)
    {operand : VmcsReg} (ho : getIkgtVmcsGuestRegId cpuinfo.operandReg = some operand) :
    handleCrEvent k info cpuinfo s =
      filterCrWrite k info operand (s.fw.reg k.vmcsReg) (s.fw.reg operand)
        { s with response := .allow, fw := s.fw.tick.tick.tick.tick } := by
  have hknown : cpuinfo.operandReg ≠ .unknown := by
    intro h
    rw [h] at ho
    cases ho
  have hcur := readGuestReg_ok s.fw hok k.vmcsReg
  have hnew := readGuestReg_ok s.fw.tick.tick hok operand
  unfold handleCrEvent
  simp only [if_neg hknown, hcur, ho, hnew, ne_eq, not_true_eq_false, if_false]
  rfl

/-- The slots after an update in place. -/
theorem slots_withSlots {s : HandlerState} {slots : List PolicyEntry}
    (h : slots.length = s.slots.length) : (s.withSlots slots).slots = slots := by
  unfold HandlerState.withSlots HandlerState.slots at *
  cases ht : s.gPolicyTable with
  | none =>
    rw [ht, List.length_nil, List.length_eq_zero_iff] at h
    exact h.symm
  | some t =>
    rw [ht] at h
    simp only [Option.map_some, PolicyTable.replaceSlots]
    rw [dif_pos h]
    rfl

/-- **The filter meets the specification**, where the values differ. -/
theorem filterCrWrite_spec (cr : GuestCr) {s : HandlerState}
    (hd : Distinct PolicyEntry.resourceId resourceIdUnknown s.slots)
    (hok : ∀ n, s.fw.env.outcome n = .success) (info : EventInfo) (operand : VmcsReg)
    {cur new : U64} (hne : new ≠ cur) :
    CrSpec cr.reg info operand cur new s (filterCrWrite cr.reg info operand cur new s)
      (filteredCr cr.reg s.slots cur new) := by
  have hdiff : ¬ cur ^^^ new = 0 := fun h => hne (BitVec.xor_eq_zero_iff.mp h).symm
  have hvalue : (crPolicyLoop cr.reg s.slots ⟨new, cur, cur ^^^ new, false⟩).2.newCrValue =
      filteredCr cr.reg s.slots cur new := rfl
  have hslots := crPolicyLoop_slots (k := cr.reg) s.slots ⟨new, cur, cur ^^^ new, false⟩
  have hlog := crPolicyLoop_log (k := cr.reg) s.slots ⟨new, cur, cur ^^^ new, false⟩
  have hspec := cr.filteredCr_spec hd cur new
  have hframe := PolicyFrame.filterCrWrite cr.reg info operand cur new s
  unfold filterCrWrite at hframe ⊢
  simp only [if_neg hdiff] at hframe ⊢
  generalize crPolicyLoop cr.reg s.slots ⟨new, cur, cur ^^^ new, false⟩ = r
    at hvalue hslots hlog hframe ⊢
  obtain ⟨slots, ctx⟩ := r
  simp only [touched_iff, Bool.false_or] at hvalue hslots hlog hframe ⊢
  have hwith : (s.withSlots slots).slots = slots :=
    slots_withSlots (by rw [hslots, List.length_map])
  have hany : ctx.log = true ↔ ∃ e ∈ s.slots, Differs cr.reg cur new e ∧ e.wHasLog = true := by
    rw [hlog, List.any_eq_true]
    simp only [Bool.and_eq_true, touched_iff]
  -- the state after the call of `log_event`, if there is one
  obtain ⟨s1, hs1⟩ : ∃ s1, s1 = if ctx.log = true then logEvent info.threadId info.rip
      (s.withSlots slots) else s.withSlots slots := ⟨_, rfl⟩
  have hafter : s1.fw.reg = s.fw.reg ∧ s1.fw.calls = s.fw.calls ∧ s1.fw.env = s.fw.env ∧
      s1.slots = slots ∧ s1.logEvents =
        if ctx.log = true then ⟨info.threadId, info.rip⟩ :: s.logEvents else s.logEvents := by
    rw [hs1]
    split
    · obtain ⟨hostLog, heq⟩ := logEvent_eq info.threadId info.rip (s.withSlots slots)
      rw [heq]
      exact ⟨rfl, rfl, rfl, hwith, rfl⟩
    · exact ⟨rfl, rfl, rfl, hwith, rfl⟩
  obtain ⟨hreg, hcalls, henv, hslots1, hlog1⟩ := hafter
  simp only [hany] at hlog1
  rw [← hs1, hvalue] at hframe ⊢
  by_cases hcur : filteredCr cr.reg s.slots cur new = cur
  · rw [if_pos hcur] at hframe ⊢
    exact ⟨fun b _ => hspec b, fun _ => ⟨rfl, hreg, hcalls⟩, fun h => absurd hcur h, hlog1,
      hslots1.trans hslots, hframe⟩
  · rw [if_neg hcur] at hframe ⊢
    obtain ⟨hwrite, hcall⟩ := writeGuestReg_ok s1.fw (fun n => henv ▸ hok n) operand
      (filteredCr cr.reg s.slots cur new)
    exact ⟨fun b _ => hspec b, fun h => absurd h hcur,
      fun _ => ⟨rfl, by rw [hwrite, hreg], by rw [hcall, hcalls]⟩, hlog1, hslots1.trans hslots,
      hframe⟩

/-- **A control register write meets its specification.** For every reachable table, all register
contents and no request failing: writing the current value is allowed and does nothing else, and
any other write comes to what `CrSpec` says. -/
theorem handleCrEvent_spec {debug : Bool} {s : HandlerState} (hs : Reachable debug s)
    (cr : GuestCr) {operandReg : IkgtCpuReg} {operand : VmcsReg}
    (ho : getIkgtVmcsGuestRegId operandReg = some operand) {env : Surroundings}
    (hok : ∀ n, env.outcome n = .success) (reg : VmcsReg → U64) (info : EventInfo) :
    let cur := reg cr.reg.vmcsReg
    let new := reg operand
    let before := s.atEvent env reg
    let after := cr.handleEvent info ⟨.reg, cr.reg.eventReg, operandReg⟩ before
    (new = cur → after = { before with
        response := .allow
        fw := before.fw.tick.tick.tick.tick }) ∧
      (new ≠ cur → ∃ final, CrSpec cr.reg info operand cur new before after final) := by
  intro cur new before after
  obtain ⟨m, hm⟩ := hs.refines
  have hafter : after = filterCrWrite cr.reg info operand cur new
      { before with response := .allow, fw := before.fw.tick.tick.tick.tick } := by
    change cr.handleEvent info _ before = _
    rw [cr.handleEvent_eq]
    exact handleCrEvent_ok (s := before) hok info _ ho
  refine ⟨fun hsame => ?_, fun hne => ?_⟩
  · rw [hafter]
    unfold filterCrWrite
    exact if_pos (BitVec.xor_eq_zero_iff.mpr hsame.symm)
  · have hspec := filterCrWrite_spec cr (s := { before with
        response := .allow
        fw := before.fw.tick.tick.tick.tick }) hm.distinct hok info operand hne
    rw [← hafter] at hspec
    have hread : PolicyFrame before { before with
        response := .allow
        fw := before.fw.tick.tick.tick.tick } := ⟨rfl, rfl, rfl, rfl, rfl⟩
    have hframe : PolicyFrame before after := hread.trans hspec.frame
    exact ⟨_, hspec.value, hspec.redirected, hspec.allowed, hspec.logged, hspec.counted, hframe⟩

/-- CR0.WP with SKIP and LOG, against a write of zero through RAX. -/
theorem handleCrEvent_spec_wp :
    let s := run (reportEvent false) (handlerInitialize (.boot .atBoot))
      [(PolicyMessage.about .policyEntryEnable .cr0Wp 3 0).event]
    let reg := Function.update (fun _ => 0) VmcsReg.cr0 (0x10000 : U64)
    let before := s.atEvent .cooperative reg
    let after := GuestCr.cr0.handleEvent ⟨0, 0, 0⟩ ⟨.reg, .cr0, .gp .rax⟩ before
    ∃ final, CrSpec cr0 ⟨0, 0, 0⟩ (.gp .rax) 0x10000 0 before after final := by
  intro s reg before after
  have hne : reg (.gp .rax) ≠ reg .cr0 := by
    change (0 : U64) ≠ 0x10000
    decide
  exact (@handleCrEvent_spec false s ⟨_, _, rfl, rfl⟩ .cr0 (.gp .rax) _ rfl .cooperative
    (fun _ => rfl) reg ⟨0, 0, 0⟩).2 hne

end IkgtUsage
