import IkgtUsage.Handler.MsrSpec
import IkgtUsage.Protocol.Machine

/-!
# What a policy means for the guest

The user enables an item, and from then on the registers behave differently: a bit with SKIP does
not change, a bit with STICKY only goes to its sticky value, an MSR with SKIP is not written to, and
one with STICKY takes its sticky value and no other. `Ruled` is a system with these rules and
nothing else in it: the driver, the settings last asked for, and the registers of all CPUs. It has
no handler, no table of entries, no monitored bits, and no events that may or may not be reported.

Where nothing fails, the machine is that system (`registers_follow_settings`): over whole runs, on
each CPU, each bit of CR0 and CR4 and each MSR has the value that the rules give it. The exceptions
are in `ruleOf`: the rows of `STAR` and `LSTAR` rule nothing, as the handler has no number for them,
and nothing is ruled on CPUs beyond the driver's two bitmap words. And a WRMSR is taken to have 32
bits in RCX (`MachineAction.RcxFits`).
-/

namespace IkgtUsage

open Framework Lib

/-! ## The rules -/

/-- The rows of the driver's tables, less `STAR` and `LSTAR`. -/
def ruledRows : List (CfgGroup × NameValueMap) :=
  [CfgGroup.cr0, .cr4, .msr].flatMap fun g =>
    (g.kind.table.filter fun row => !row.resId.isStar).map fun row => (g, row)

/-- The setting last asked for, for the row that stands for `w`. -/
def ruleOf (table : U32 → Option Setting) (w : Watch) : Option Setting :=
  (ruledRows.find? fun gr => gr.1.concerns gr.2 w).bind fun gr => table gr.2.resId.code

/-- A bit that had the value `cur`, after a write of `new`. -/
def ruledBit (rule : Option Setting) (cur new : Bool) : Bool :=
  match rule with
  | none => new
  | some setting =>
    if cur = new then new
    else if setting.hasSticky then setting.stickyVal.getLsbD 0
    else if setting.wHasSkip then cur
    else new

/-- The setting lets `value` be written to its MSR. -/
def Setting.AllowsMsr (setting : Setting) (value : U64) : Prop :=
  if setting.hasSticky then value = setting.stickyVal else setting.wHasSkip = false

instance (setting : Setting) (value : U64) : Decidable (setting.AllowsMsr value) := by
  unfold Setting.AllowsMsr; infer_instance

/-- An MSR that had the value `cur`, after a write of `new`. -/
def ruledMsr (rule : Option Setting) (cur new : U64) : U64 :=
  match rule with
  | none => new
  | some setting => if setting.AllowsMsr new then new else cur

/-! ## The system with the rules -/

/-- The bits of CR0 and CR4, and the MSRs, of each CPU. -/
@[ext]
structure GuestRegs where
  cr : Nat → GuestCr → Nat → Bool
  msr : Nat → U32 → U64

/-- The registers of the machine. -/
def Machine.regs (m : Machine) : GuestRegs := ⟨fun cpu cr b => (m.cr cpu cr).getLsbD b, m.msr⟩

/-- The registers after an action under the rules. -/
def GuestRegs.after (g : GuestRegs) (rule : Watch → Option Setting) : MachineAction → GuestRegs
  | .system .. => g
  | .crWrite cpu cr _ value .. =>
    { g with
      cr := fun cpu' cr' b =>
        if cpu' = cpu ∧ cr' = cr then
          ruledBit (rule (.crBit cr.reg.eventReg cpu b)) (g.cr cpu cr b) (value.getLsbD b)
        else g.cr cpu' cr' b }
  | .msrWrite cpu rcx rdx rax .. =>
    { g with
      msr := fun cpu' msrId =>
        if cpu' = cpu ∧ msrId = low rcx then
          ruledMsr (rule (.msr msrId)) (g.msr cpu msrId) (edxEax rdx rax)
        else g.msr cpu' msrId }

/-- The driver with the settings last asked for, and the registers. -/
structure Ruled where
  driver : LockSystem
  regs : GuestRegs

/-- One action. -/
def ruledStep (s : Ruled) (a : MachineAction) : Ruled :=
  ⟨run lockStep s.driver a.op.toList, s.regs.after (ruleOf s.driver.table) a⟩

/-- A write to a control register is reported on the CPUs of the driver's bitmap only. -/
def MachineAction.OnCovered : MachineAction → Prop
  | crWrite cpu _ _ _ true _ _ => cpu < 128
  | _ => True

/-- A calm step, so with 32 bits in RCX, and on the CPUs that the driver's bitmap covers. -/
structure Machine.Covered (debug : Bool) (m : Machine) (a : MachineAction) : Prop extends
    m.Calm debug a where
  covered : a.OnCovered

/-! ## Which rule -/

section RuleOf

variable {table : U32 → Option Setting} {w : Watch}

theorem mem_ruledRows {gr : CfgGroup × NameValueMap} :
    gr ∈ ruledRows ↔ gr.2 ∈ gr.1.kind.table ∧ gr.2.resId.isStar = false := by
  obtain ⟨g, row⟩ := gr
  cases g <;> simp [ruledRows]

/-- The row that stands for `w` rules. -/
theorem ruleOf_of_concerns {g : CfgGroup} {row : NameValueMap} (hrow : row ∈ g.kind.table)
    (hstar : row.resId.isStar = false) (hconcerns : g.concerns row w = true) :
    ruleOf table w = table row.resId.code := by
  have hsome : (ruledRows.find? fun gr => gr.1.concerns gr.2 w).isSome = true :=
    List.find?_isSome.mpr ⟨(g, row), mem_ruledRows.mpr ⟨hrow, hstar⟩, hconcerns⟩
  obtain ⟨⟨g', row'⟩, hfind⟩ := Option.isSome_iff_exists.mp hsome
  obtain ⟨hrow', -⟩ := mem_ruledRows.mp (List.mem_of_find?_eq_some hfind)
  have hconcerns' : g'.concerns row' w = true := by simpa using List.find?_some hfind
  unfold ruleOf
  rw [hfind, Option.bind_some, resId_of_concerns hrow' hrow hconcerns' hconcerns]

/-- Without such a row there is no rule. -/
theorem ruleOf_of_not_concerns (h : ∀ g : CfgGroup, ∀ row ∈ g.kind.table,
    row.resId.isStar = false → g.concerns row w = false) : ruleOf table w = none := by
  have hnone : (ruledRows.find? fun gr => gr.1.concerns gr.2 w) = none := by
    rw [List.find?_eq_none]
    intro gr hgr
    obtain ⟨hrow, hstar⟩ := mem_ruledRows.mp hgr
    simp [h gr.1 gr.2 hrow hstar]
  unfold ruleOf
  rw [hnone, Option.bind_none]

/-- What has a rule is what is to be monitored. -/
theorem monitored_iff_rule : Monitored table w ↔ (ruleOf table w).isSome = true := by
  constructor
  · rintro ⟨g, row, hrow, hstar, hconcerns, hsome⟩
    rwa [ruleOf_of_concerns hrow hstar hconcerns]
  · intro hsome
    by_contra hno
    have hrule : ∀ g : CfgGroup, ∀ row ∈ g.kind.table, row.resId.isStar = false →
        g.concerns row w = true → False := by
      intro g row hrow hstar hconcerns
      rw [ruleOf_of_concerns hrow hstar hconcerns] at hsome
      exact hno ⟨g, row, hrow, hstar, hconcerns, hsome⟩
    rw [ruleOf_of_not_concerns fun g row hrow hstar =>
      Bool.eq_false_iff.mpr (hrule g row hrow hstar)] at hsome
    cases hsome

end RuleOf

/-! ## The handler's policy is the rule -/

section Policy

variable {policies : Finmap fun _ : U32 => Policy} {table : U32 → Option Setting}

/-- Every bit the handler has a resource for has a row of the driver. -/
theorem exists_row_of_bitOf (cr : GuestCr) {b : Nat} {id : U32} (h : cr.reg.BitOf b id) :
    ∃ g : CfgGroup, g ≠ .msr ∧ ∃ row ∈ g.kind.table, row.resId.code = id := by
  have hall : ∀ row ∈ cr.reg.maskTable, ∃ g : CfgGroup, g ≠ .msr ∧
      ∃ row' ∈ g.kind.table, row'.resId.code = row.resourceId.code := by
    cases cr with
    | cr0 => exact fun row hrow => ⟨.cr0, CfgGroup.noConfusion, (by decide : ∀ row ∈ cr0.maskTable,
        ∃ row' ∈ CfgGroup.cr0.kind.table, row'.resId.code = row.resourceId.code) row hrow⟩
    | cr4 => exact fun row hrow => ⟨.cr4, CfgGroup.noConfusion, (by decide : ∀ row ∈ cr4.maskTable,
        ∃ row' ∈ CfgGroup.cr4.kind.table, row'.resId.code = row.resourceId.code) row hrow⟩
  obtain ⟨row, hrow, hid, -⟩ := ControlReg.resIdToMask_eq h
  exact hid ▸ hall row hrow

/-- **The policy of a bit is its rule**, on the CPUs of the bitmap. -/
theorem policyOf_rule (hsettings : ∀ id, (policies.lookup id).map Policy.setting = table id)
    (cr : GuestCr) {cpu : Nat} (hcpu : cpu < 128) (b : Nat) :
    (cr.reg.policyOf policies b).map Policy.setting =
      ruleOf table (.crBit cr.reg.eventReg cpu b) := by
  unfold ControlReg.policyOf
  cases hresource : cr.reg.resourceOf b with
  | none =>
    rw [ruleOf_of_not_concerns]
    · rfl
    intro g row hrow _
    rw [Bool.eq_false_iff]
    intro hconcerns
    have hg : g ≠ .msr := by
      rintro rfl
      cases hconcerns
    have hbit := (bitOf_iff_concerns cr hg hrow hcpu b).mpr hconcerns
    rw [cr.bitOf_iff, hresource] at hbit
    cases hbit
  | some id =>
    have hbit := (cr.bitOf_iff b id).mpr hresource
    obtain ⟨g, hg, row, hrow, rfl⟩ := exists_row_of_bitOf cr hbit
    have hstar : row.resId.isStar = false := by
      refine crBits_not_star row ?_
      cases g with
      | cr0 => exact List.mem_append_left _ hrow
      | cr4 => exact List.mem_append_right _ hrow
      | msr => exact absurd rfl hg
    rw [ruleOf_of_concerns hrow hstar ((bitOf_iff_concerns cr hg hrow hcpu b).mp hbit),
      ← hsettings]
    rfl

/-- The specified bit is the ruled one. -/
theorem specBit_eq_ruledBit (k : ControlReg) (cur new : U64) (b : Nat) :
    specBit k policies cur new b =
      ruledBit ((k.policyOf policies b).map Policy.setting) (cur.getLsbD b) (new.getLsbD b) := by
  unfold specBit ruledBit
  cases k.policyOf policies b with
  | none => split <;> rfl
  | some p => rfl

/-- The filtered value, by the rules. -/
theorem getLsbD_filteredCr {s : HandlerState}
    (hd : Distinct PolicyEntry.resourceId resourceIdUnknown s.slots)
    (hsettings : ∀ id, (s.policies.lookup id).map Policy.setting = table id) (cr : GuestCr)
    {cpu : Nat} (hcpu : cpu < 128) (cur new : U64) (b : Nat) :
    (filteredCr cr.reg s.slots cur new).getLsbD b =
      ruledBit (ruleOf table (.crBit cr.reg.eventReg cpu b)) (cur.getLsbD b) (new.getLsbD b) := by
  rw [cr.filteredCr_spec hd, specBit_eq_ruledBit, policyOf_rule hsettings cr hcpu]

/-- The policy of an MSR. -/
def msrPolicyOf (policies : Finmap fun _ : U32 => Policy) (msrId : U32) : Option Policy :=
  (msrResIdTable.find? fun row => row.1 = msrId).bind fun row => policies.lookup row.2.code

/-- The rows of the two MSR tables, less `STAR` and `LSTAR`. -/
theorem msrRows_agree :
    (∀ row ∈ msrResIdTable, ∃ row' ∈ msrRegs, row'.resId.isStar = false ∧
      row'.value.truncate 32 = row.1 ∧ row'.resId.code = row.2.code) ∧
    ∀ row' ∈ msrRegs, row'.resId.isStar = false →
      ∃ row ∈ msrResIdTable, row.1 = row'.value.truncate 32 := by
  decide

/-- **The policy of an MSR is its rule.** -/
theorem msrPolicyOf_rule (hsettings : ∀ id, (policies.lookup id).map Policy.setting = table id)
    (msrId : U32) :
    (msrPolicyOf policies msrId).map Policy.setting = ruleOf table (.msr msrId) := by
  unfold msrPolicyOf
  cases hfind : msrResIdTable.find? fun row => row.1 = msrId with
  | none =>
    rw [ruleOf_of_not_concerns]
    · rfl
    intro g row hrow hstar
    cases g with
    | cr0 => rfl
    | cr4 => rfl
    | msr =>
      rw [Bool.eq_false_iff]
      intro hconcerns
      obtain ⟨row', hrow', hmsr⟩ := msrRows_agree.2 row hrow hstar
      have hnot := List.find?_eq_none.mp hfind row' hrow'
      exact hnot (decide_eq_true (hmsr.trans (of_decide_eq_true hconcerns)))
  | some row =>
    obtain ⟨row', hrow', hstar, hmsr, hcode⟩ :=
      msrRows_agree.1 row (List.mem_of_find?_eq_some hfind)
    have hid : row.1 = msrId := by simpa using List.find?_some hfind
    have hconcerns : CfgGroup.msr.concerns row' (.msr msrId) = true :=
      decide_eq_true (hmsr.trans hid)
    rw [ruleOf_of_concerns (g := .msr) hrow' hstar hconcerns, hcode, ← hsettings]
    rfl

end Policy

/-! ## One step -/

/-- A change of the handler that leaves the policy. -/
theorem Deployed.frame {s s' : EnforceSystem} {l : LockSystem} (h : Deployed s l)
    (hfs : s'.fs = s.fs) (hframe : PolicyFrame s.handler s'.handler) : Deployed s' l := by
  obtain ⟨map, hrefines, hids, hsettings⟩ := h.policies
  exact ⟨hfs.trans h.fs, ⟨map, hrefines.frame hframe, hids, hsettings⟩,
    fun w => (Bool.eq_iff_iff.mp (hframe.watches w)).trans (h.watches w)⟩

namespace Machine

variable {debug : Bool} {m : Machine} {l : LockSystem}

/-- Driver and handler in a step of the machine. -/
theorem deployed_step (h : Deployed m.sys l) {a : MachineAction}
    (hno : a.Undisturbed debug) :
    Deployed (machineStep debug m a).sys (run lockStep l a.op.toList) := by
  cases a with
  | system cpu a =>
    have hentered : Deployed (m.entered (m.reg cpu)) l :=
      h.frame rfl (m.frame_entered (m.reg cpu))
    exact Deployed.step _ _ a hentered hno
  | crWrite cpu cr operand value reported info env =>
    obtain ⟨hfs, hframe⟩ := m.frame_registerWrite debug
      (a := .crWrite cpu cr operand value reported info env) trivial
    exact h.frame hfs hframe
  | msrWrite cpu rcx rdx rax reported info env =>
    obtain ⟨hfs, hframe⟩ := m.frame_registerWrite debug
      (a := .msrWrite cpu rcx rdx rax reported info env) trivial
    exact h.frame hfs hframe

/-- **A control register write** takes its bits where the rules have them, and no others. -/
theorem regs_crWrite (h : Deployed m.sys l) {cpu : Nat} {cr : GuestCr} {operand : GpReg}
    {value : U64} {reported : Bool} {info : EventInfo} {env : Surroundings}
    (ha : m.Covered debug (.crWrite cpu cr operand value reported info env)) :
    (machineStep debug m (.crWrite cpu cr operand value reported info env)).regs =
      m.regs.after (ruleOf l.table) (.crWrite cpu cr operand value reported info env) := by
  obtain ⟨hreport, henv⟩ := ha.admits
  refine GuestRegs.ext ?_ (msr_crWrite cr operand value reported info env)
  funext cpu' cr' b
  change ((machineStep debug m _).cr cpu' cr').getLsbD b =
    if cpu' = cpu ∧ cr' = cr then ruledBit _ ((m.cr cpu cr).getLsbD b) _
    else (m.cr cpu' cr').getLsbD b
  cases reported with
  | true =>
    obtain ⟨map, hrefines, -⟩ := h.policies
    have hcpu : cpu < 128 := ha.covered
    rw [cr_reported hrefines.init hrefines.distinct cr operand value info env]
    split
    · rw [crAfter_of_success henv, getLsbD_filteredCr hrefines.distinct h.settings cr hcpu]
    · rfl
  | false =>
    rw [cr_passed]
    split
    swap
    · rfl
    -- what has a rule is monitored, so the write leaves it
    cases hrule : ruleOf l.table (.crBit cr.reg.eventReg cpu b) with
    | none => rfl
    | some setting =>
      have hwatch : m.sys.handler.fw.watches (.crBit cr.reg.eventReg cpu b) = true := by
        rw [h.watches, monitored_iff_rule, hrule]
        rfl
      have hsame := hreport.resolve_left Bool.false_ne_true b hwatch
      exact (if_pos hsame.symm).symm

end Machine

/-- The specified response. -/
theorem MsrSpec.response_iff {info : EventInfo} {value : U64} {e : PolicyEntry}
    {s s' : HandlerState} (h : MsrSpec info value e s s') :
    s'.response = .allow ↔ e.setting.AllowsMsr value := by
  have hsticky : e.setting.hasSticky = e.hasSticky := rfl
  have hskip : e.setting.wHasSkip = e.wHasSkip := rfl
  rw [h.response]
  unfold Setting.AllowsMsr
  rw [hsticky, hskip]
  cases e.hasSticky with
  | true => simp [PolicyEntry.setting]
  | false => simp

/-- **The response to a write to an MSR**, by the policy: it is allowed if a request fails, or if
RCX has more than 32 bits, or if the policy allows it. -/
theorem response_handleMsrEvent {s : HandlerState}
    (hd : Distinct PolicyEntry.resourceId resourceIdUnknown s.slots) (info : EventInfo)
    (env : Surroundings) :
    (handleMsrEvent info (s.entered env)).response = .allow ↔
      env.FailedWithin 8 ∨ 2 ^ 32 ≤ (s.gp .rcx).toNat ∨
        ∀ p ∈ msrPolicyOf s.policies (low (s.gp .rcx)),
          p.setting.AllowsMsr (makeU64 (s.gp .rdx) (s.gp .rax)) := by
  have hvisible : (handleMsrEvent info (s.entered env)).visible =
      if ¬ env.FailedWithin 8 ∧ (msrSwitch (s.gp .rcx)).isSome = true then
        filteredMsr info (low (s.gp .rcx)) (makeU64 (s.gp .rdx) (s.gp .rax)) (s.entered env)
      else (s.entered env).untouched := visible_handleMsrEvent (s := s.entered env) rfl info
  have huntouched : (handleMsrEvent info (s.entered env)).visible = (s.entered env).untouched →
      (handleMsrEvent info (s.entered env)).response = .allow := congrArg Visible.response
  by_cases hfail : env.FailedWithin 8
  · rw [if_neg fun h => h.1 hfail] at hvisible
    exact iff_of_true (huntouched hvisible) (Or.inl hfail)
  by_cases hrcx : (s.gp .rcx).toNat < 2 ^ 32
  swap
  · -- the switch compares all 64 bits
    have hnone : ¬ (msrSwitch (s.gp .rcx)).isSome = true := by
      rw [msrSwitch_isSome_iff_row]
      rintro ⟨row, -, hrow⟩
      rw [hrow] at hrcx
      exact hrcx (lt_of_eq_of_lt (BitVec.toNat_setWidth_of_le (by decide)) row.1.isLt)
    rw [if_neg fun h => hnone h.2] at hvisible
    exact iff_of_true (huntouched hvisible) (Or.inr (Or.inl (not_lt.mp hrcx)))
  rw [or_iff_right hfail, or_iff_right (not_le.mpr hrcx)]
  unfold msrPolicyOf
  cases hfind : msrResIdTable.find? fun row => row.1 = low (s.gp .rcx) with
  | none =>
    have hnone : ¬ (msrSwitch (s.gp .rcx)).isSome = true := by
      rw [msrSwitch_isSome_iff_row]
      rintro ⟨row, hrow, hrcx'⟩
      refine List.find?_eq_none.mp hfind row hrow (decide_eq_true ?_)
      have hle : 32 ≤ 64 := by decide
      rw [hrcx']
      exact (BitVec.setWidth_setWidth_of_le row.1 hle).symm
    rw [if_neg fun h => hnone h.2] at hvisible
    refine iff_of_true (huntouched hvisible) fun p hp => ?_
    cases hp
  | some row =>
    have hrow := List.mem_of_find?_eq_some hfind
    have hmsr : row.1 = low (s.gp .rcx) := by simpa using List.find?_some hfind
    have hsome : (msrSwitch (s.gp .rcx)).isSome = true := by
      refine (msrSwitch_isSome_iff_row _).mpr ⟨row, hrow, ?_⟩
      rw [hmsr, zeroExtend_low hrcx]
    rw [if_pos ⟨hfail, hsome⟩, ← hmsr] at hvisible
    obtain ⟨hnone, hentry⟩ := filteredMsr_spec hrow (s := s.entered env) hd hvisible
      (.handleMsrEvent info (s.entered env))
    rw [Option.bind_some, HandlerState.policies,
      lookup_toMap PolicyEntry.policy row.2.code_ne_unknown]
    cases hslot : slotOf PolicyEntry.resourceId row.2.code s.slots with
    | none =>
      refine iff_of_true (huntouched (hnone (slotOf_eq_none_iff.mp hslot))) fun p hp => ?_
      cases hp
    | some e =>
      rw [(hentry e (mem_of_slotOf hslot) (key_of_slotOf hslot)).response_iff]
      simp only [Option.map_some, Option.mem_some, forall_eq']
      rfl

/-- What is allowed is written, and what is not is not. -/
theorem ruledMsr_map (policy : Option Policy) (cur new : U64) :
    ((∀ p ∈ policy, p.setting.AllowsMsr new) →
      ruledMsr (policy.map Policy.setting) cur new = new) ∧
    (¬ (∀ p ∈ policy, p.setting.AllowsMsr new) →
      ruledMsr (policy.map Policy.setting) cur new = cur) := by
  cases policy with
  | none => exact ⟨fun _ => rfl, fun h => absurd (fun p hp => nomatch hp) h⟩
  | some p =>
    refine ⟨fun h => if_pos (h p rfl), fun h => if_neg fun hp => h ?_⟩
    intro p' hp'
    rwa [← Option.some_inj.mp hp']

namespace Machine

variable {debug : Bool} {m : Machine} {l : LockSystem} {cpu cpu' : Nat}

/-- A WRMSR that is not reported takes effect. -/
theorem msr_passed (rcx rdx rax : U64) (info : EventInfo) (env : Surroundings) (msrId : U32) :
    (machineStep debug m (.msrWrite cpu rcx rdx rax false info env)).msr cpu' msrId =
      if cpu' = cpu ∧ msrId = low rcx then edxEax rdx rax else m.msr cpu' msrId := by
  rw [msr_msrWrite, makeU64_eq]
  refine if_congr ⟨fun h => ⟨h.1, h.2.1⟩, fun h => ⟨h.1, h.2, ?_⟩⟩ rfl rfl
  exact Bool.false_ne_true.elim

/-- A WRMSR that is reported follows the rules, unless a request fails or RCX has more than 32 bits.
-/
theorem msr_reported (hinit : m.sys.handler.gBInitStatus = true)
    (hd : Distinct PolicyEntry.resourceId resourceIdUnknown m.sys.handler.slots)
    {table : U32 → Option Setting}
    (hsettings : ∀ id, (m.sys.handler.policies.lookup id).map Policy.setting = table id)
    (rcx rdx rax : U64) (info : EventInfo) (env : Surroundings) (msrId : U32) :
    (machineStep debug m (.msrWrite cpu rcx rdx rax true info env)).msr cpu' msrId =
      if cpu' = cpu ∧ msrId = low rcx then
        if env.FailedWithin 8 ∨ 2 ^ 32 ≤ rcx.toNat then edxEax rdx rax
        else ruledMsr (ruleOf table (.msr msrId)) (m.msr cpu msrId) (edxEax rdx rax)
      else m.msr cpu' msrId := by
  rw [msr_msrWrite, makeU64_eq]
  by_cases hwrite : cpu' = cpu ∧ msrId = low rcx
  swap
  · rw [if_neg fun hall => hwrite ⟨hall.1, hall.2.1⟩, if_neg hwrite]
  obtain ⟨rfl, rfl⟩ := hwrite
  rw [if_pos (And.intro rfl rfl)]
  obtain ⟨s0, hs0⟩ : ∃ s0, s0 = (m.entered (m.msrOperands cpu' rcx rdx rax)).handler := ⟨_, rfl⟩
  obtain ⟨hrcx, hrdx, hrax⟩ := m.gp_msrOperands cpu' rcx rdx rax
  rw [← hs0] at hrcx hrdx hrax ⊢
  have hinit0 : s0.gBInitStatus = true := by rw [hs0]; exact hinit
  have hslots0 : s0.slots = m.sys.handler.slots := by rw [hs0]; rfl
  have hpolicies0 : s0.policies = m.sys.handler.policies := by rw [hs0]; rfl
  have hresponse := response_handleMsrEvent (hslots0 ▸ hd) info env
  rw [hrcx, hrdx, hrax, makeU64_eq, hpolicies0, ← or_assoc] at hresponse
  obtain ⟨hallowed, hrefused⟩ := ruledMsr_map (msrPolicyOf m.sys.handler.policies (low rcx))
    (m.msr cpu' (low rcx)) (edxEax rdx rax)
  rw [reportEvent_eq hinit0, ← msrPolicyOf_rule hsettings]
  by_cases hfail : env.FailedWithin 8 ∨ 2 ^ 32 ≤ rcx.toNat
  · rw [if_pos hfail, if_pos ⟨rfl, rfl, fun _ => hresponse.mpr (Or.inl hfail)⟩]
  rw [if_neg hfail]
  rw [or_iff_right hfail] at hresponse
  by_cases hallow : ∀ p ∈ msrPolicyOf m.sys.handler.policies (low rcx),
      p.setting.AllowsMsr (edxEax rdx rax)
  · rw [if_pos ⟨rfl, rfl, fun _ => hresponse.mpr hallow⟩, hallowed hallow]
  · rw [if_neg fun hall => hallow (hresponse.mp (hall.2.2 rfl)), hrefused hallow]

/-- **A WRMSR** takes its MSR where the rules have it, and no other. -/
theorem regs_msrWrite (h : Deployed m.sys l) {cpu : Nat} {rcx rdx rax : U64} {reported : Bool}
    {info : EventInfo} {env : Surroundings}
    (ha : m.Covered debug (.msrWrite cpu rcx rdx rax reported info env)) :
    (machineStep debug m (.msrWrite cpu rcx rdx rax reported info env)).regs =
      m.regs.after (ruleOf l.table) (.msrWrite cpu rcx rdx rax reported info env) := by
  obtain ⟨hreport, henv⟩ := ha.admits
  have hrcx : rcx.toNat < 2 ^ 32 := ha.rcxFits
  refine GuestRegs.ext ?_ ?_
  · funext cpu' cr b
    exact congrArg (fun value : U64 => value.getLsbD b)
      (cr_msrWrite rcx rdx rax reported info env cr)
  funext cpu' msrId
  change (machineStep debug m _).msr cpu' msrId =
    if cpu' = cpu ∧ msrId = low rcx then ruledMsr _ (m.msr cpu msrId) _ else m.msr cpu' msrId
  cases reported with
  | true =>
    obtain ⟨map, hrefines, -⟩ := h.policies
    have hok : ¬ (env.FailedWithin 8 ∨ 2 ^ 32 ≤ rcx.toNat) := by
      rintro (⟨n, -, hn⟩ | hbig)
      · exact hn (henv n)
      · exact absurd hrcx (not_lt.mpr hbig)
    rw [msr_reported hrefines.init hrefines.distinct h.settings, if_neg hok]
  | false =>
    rw [msr_passed]
    split
    swap
    · rfl
    rename_i hwrite
    obtain ⟨rfl, rfl⟩ := hwrite
    cases hrule : ruleOf l.table (.msr (low rcx)) with
    | none => rfl
    | some setting =>
      -- what has a rule is monitored, so it would have been reported
      have hwatch : m.sys.handler.fw.watches (.msr (low rcx)) = true := by
        rw [h.watches, monitored_iff_rule, hrule]
        rfl
      rw [hreport.resolve_left Bool.false_ne_true] at hwatch
      cases hwatch

end Machine

/-! ## The simulation -/

/-- Driver and handler are in the state of the driver, and the registers are the same. -/
structure Machine.RuledBy (m : Machine) (s : Ruled) : Prop where
  deployed : Deployed m.sys s.driver
  regs : m.regs = s.regs

namespace Machine.RuledBy

variable {debug : Bool}

/-- **One action.** -/
theorem step : Simulates (machineStep debug) ruledStep (fun _ a => [a])
    (Machine.Covered debug) Machine.RuledBy := by
  intro m s a h ha
  refine ⟨Machine.deployed_step h.deployed ha.undisturbed, ?_⟩
  change (machineStep debug m a).regs = s.regs.after (ruleOf s.driver.table) a
  rw [← h.regs]
  cases a with
  | crWrite cpu cr operand value reported info env => exact Machine.regs_crWrite h.deployed ha
  | msrWrite cpu rcx rdx rax reported info env => exact Machine.regs_msrWrite h.deployed ha
  | system cpu a =>
    refine GuestRegs.ext ?_ rfl
    funext cpu' cr b
    refine congrArg (fun value : U64 => value.getLsbD b) (Machine.cr_system ?_ cr)
    rintro e rfl
    exact ha.admits

theorem init {fw : Framework} (halloc : fw.nextOutcome = .success)
    (hnone : ∀ w, fw.watches w = false) (reg : Nat → VmcsReg → U64) (msr : Nat → U32 → U64) :
    (Machine.init fw reg msr).RuledBy
      ⟨⟨.empty, fun _ => none⟩, (Machine.init fw reg msr).regs⟩ := ⟨.init halloc hnone, rfl⟩

end Machine.RuledBy

/-! ## Runs -/

/-- The registers are those of the rules. -/
theorem Machine.RuledBy.run {debug : Bool} {m : Machine} {s : Ruled} (h : m.RuledBy s)
    {actions : List MachineAction}
    (hok : Steps (machineStep debug) (Machine.Covered debug) m actions) :
    (Lib.run (machineStep debug) m actions).RuledBy (Lib.run ruledStep s actions) := by
  have hrun := Machine.RuledBy.step.run actions h hok
  rwa [trace_self] at hrun

/-- The driver of the rules is the driver with what it has sent. -/
theorem driver_run : ∀ (actions : List MachineAction) (s : Ruled),
    (run ruledStep s actions).driver =
      run lockStep s.driver (actions.filterMap MachineAction.op)
  | [], _ => rfl
  | a :: actions, s => by
    rw [run_cons, driver_run actions, List.filterMap_cons]
    unfold ruledStep
    cases a.op <;> rfl

/-- **The registers follow the settings.** Over every run from boot in which nothing fails, each
WRMSR has 32 bits in RCX, and writes to control registers are reported on CPUs below 128 only,
whatever the registers hold at first: the driver, and each bit of CR0 and CR4 and each MSR on each
CPU, are as in the system with nothing but the rules. The items of `STAR` and `LSTAR` are no rules
(`ruledRows`), so these two MSRs take every value. -/
theorem registers_follow_settings {debug : Bool} {fw : Framework}
    (halloc : fw.nextOutcome = .success) (hnone : ∀ w, fw.watches w = false)
    (reg : Nat → VmcsReg → U64) (msr : Nat → U32 → U64) {actions : List MachineAction}
    (hok : Steps (machineStep debug) (Machine.Covered debug) (.init fw reg msr) actions) :
    let m := run (machineStep debug) (.init fw reg msr) actions
    let s := run ruledStep ⟨⟨.empty, fun _ => none⟩, (Machine.init fw reg msr).regs⟩ actions
    m.sys.fs = s.driver.fs ∧ m.regs = s.regs := by
  intro m s
  have hrun := (Machine.RuledBy.init halloc hnone reg msr).run hok
  exact ⟨hrun.deployed.fs, hrun.regs⟩

/-- The user protects EFER, and CPU 1 writes to it and to an MSR without an item. -/
def writeEfer : List MachineAction :=
  (protectMsr "efer").map (.system 0) ++
    [.msrWrite 1 0xC0000080 0 0x500 true ⟨1, 0, 0⟩ .cooperative,
      .msrWrite 1 0x10 0 5 false ⟨1, 0, 0⟩ .cooperative]

/-- EFER is as before, the other MSR is written. -/
theorem registers_follow_settings_efer :
    let m := run (machineStep false) (.init .atBoot (fun _ _ => 0) fun _ _ => 7) writeEfer
    m.msr 1 0xC0000080 = 7 ∧ m.msr 1 0x10 = 5 := by
  intro m
  have hok : Steps (machineStep false) (Machine.Covered false)
      (.init .atBoot (fun _ _ => 0) fun _ _ => 7) writeEfer := by
    have huser : ∀ {m : Machine} {op : CfgOp}, NothingFails false (userAction op) →
        m.Covered false (.system 0 (userAction op)) := fun hno => ⟨⟨trivial, trivial, hno⟩, trivial⟩
    exact ⟨huser trivial, huser trivial, huser trivial, huser ⟨rfl, rfl, fun _ => rfl⟩,
      ⟨⟨⟨Or.inl rfl, fun _ => rfl⟩, (by decide : (0xC0000080 : U64).toNat < 2 ^ 32), trivial⟩,
        trivial⟩,
      ⟨⟨⟨Or.inr (by decide +kernel), fun _ => rfl⟩, (by decide : (0x10 : U64).toNat < 2 ^ 32),
        trivial⟩, trivial⟩, trivial⟩
  have hregs := (registers_follow_settings rfl (fun _ => rfl) (fun _ _ => 0) (fun _ _ => 7) hok).2
  have hmsr : m.msr = _ := congrArg GuestRegs.msr hregs
  rw [hmsr]
  decide +kernel

end IkgtUsage
