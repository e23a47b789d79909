import IkgtUsage.Driver.LockInForce
import IkgtUsage.Handler.CrSpec
import IkgtUsage.Lib.Simulation
import IkgtUsage.Protocol.Enforced

/-!
# The handler has what the driver sent

`LockSystem` is the driver with a map of what its messages asked for last; no handler occurs in it.
Where nothing fails, driver and handler together are that system: the handler's table has exactly
the settings of the map, and the framework monitors exactly what the resources in it stand for
(`handler_holds_sent`). So what is proved of the map is true of the handler.
-/

namespace IkgtUsage

open Framework Lib

/-! ## The map in the handler -/

/-- The setting that a policy has. -/
def Policy.setting (policy : Policy) : Setting := ⟨policy.wAction, policy.stickyVal⟩

/-- The framework has to monitor `w`: it is what a row with a setting stands for, and the handler
has a number for it. -/
def Monitored (table : U32 → Option Setting) (w : Watch) : Prop :=
  ∃ g : CfgGroup, ∃ row ∈ g.kind.table, row.resId.isStar = false ∧ g.concerns row w = true ∧
    (table row.resId.code).isSome = true

/-- Driver and handler are in the state `l`. -/
structure Deployed (s : EnforceSystem) (l : LockSystem) : Prop where
  fs : s.fs = l.fs
  policies : ∃ map, Refines s.handler ⟨map, false⟩ ∧ (∀ id ∈ map, ∃ r : ResourceId, r.code = id) ∧
    ∀ id, (map.lookup id).map Policy.setting = l.table id
  watches : ∀ w, s.handler.fw.watches w = true ↔ Monitored l.table w

/-- The operation of the user in an action. -/
def EnforceAction.op : EnforceAction → Option CfgOp
  | user op _ _ => some op
  | event _ => none

/-- The table of a handler is the policy it holds. -/
theorem Refines.policies_eq {s : HandlerState} {m : PolicyMap} (h : Refines s m) :
    s.policies = m.map := by
  obtain ⟨t, ht, -, hmap⟩ := h.table
  unfold HandlerState.policies HandlerState.slots
  rw [ht]
  exact hmap

/-! ## A message -/

/-- The settings after a message about an item. -/
theorem setting_policyAfter {map : Finmap fun _ : U32 => Policy} {k : CfgKind} (cfg : Cfg k)
    (enable : Bool) (id : U32) :
    ((policyAfter map cfg enable).lookup id).map Policy.setting =
      Function.update (fun id => (map.lookup id).map Policy.setting) cfg.row.resId.code
        (policyMessage cfg cfg.row enable).asks id := by
  unfold policyAfter
  by_cases hid : id = cfg.row.resId.code
  · subst hid
    rw [Function.update_self]
    cases enable with
    | true =>
      rw [if_pos rfl, Finmap.lookup_insert]
      rfl
    | false =>
      rw [if_neg Bool.false_ne_true, Finmap.lookup_erase]
      rfl
  · rw [Function.update_of_ne hid]
    cases enable with
    | true => rw [if_pos rfl, Finmap.lookup_insert_of_ne _ hid]
    | false => rw [if_neg Bool.false_ne_true, Finmap.lookup_erase_ne hid]

/-- A message about an item asks for settings exactly if it enables. -/
theorem isSome_asks {k : CfgKind} (cfg : Cfg k) (enable : Bool) :
    (policyMessage cfg cfg.row enable).asks.isSome = enable := by
  cases enable <;> rfl

/-- What is to be monitored after a message about an item. -/
theorem monitored_update {table : U32 → Option Setting} (item : Item) (enable : Bool) (w : Watch) :
    Monitored (Function.update table item.resource.code
        (policyMessage item.cfg item.cfg.row enable).asks) w ↔
      if item.resource.isStar = false ∧ item.group.concerns item.cfg.row w = true then
        enable = true
      else Monitored table w := by
  by_cases hitem : item.resource.isStar = false ∧ item.group.concerns item.cfg.row w = true
  · rw [if_pos hitem]
    constructor
    · rintro ⟨g, row, hrow, -, hconcerns, hsome⟩
      have hresource := resId_of_concerns hrow item.cfg.row_mem hconcerns hitem.2
      rw [hresource] at hsome
      rwa [show item.cfg.row.resId.code = item.resource.code from rfl, Function.update_self,
        isSome_asks] at hsome
    · intro henable
      refine ⟨item.group, item.cfg.row, item.cfg.row_mem, hitem.1, hitem.2, ?_⟩
      rw [show item.cfg.row.resId.code = item.resource.code from rfl, Function.update_self,
        isSome_asks, henable]
  · rw [if_neg hitem]
    -- a row that stands for `w` is not that of the item
    refine exists_congr fun g => exists_congr fun row => and_congr_right fun hrow =>
      and_congr_right fun hstar => and_congr_right fun hconcerns => ?_
    have hcode : row.resId.code ≠ item.resource.code := by
      intro heq
      have hresource : row.resId = item.resource := ResourceId.code_injective heq
      obtain ⟨rfl, rfl⟩ := row_of_resId hrow item.cfg.row_mem hresource
      exact hitem ⟨hstar, hconcerns⟩
    rw [Function.update_of_ne hcode]

/-! ## The simulation -/

namespace Deployed

variable {debug : Bool} {s : EnforceSystem} {l : LockSystem}

theorem init {fw : Framework} (h : fw.nextOutcome = .success)
    (hnone : ∀ w, fw.watches w = false) :
    Deployed (.init fw) ⟨.empty, fun _ => none⟩ where
  fs := rfl
  policies := ⟨∅, .handlerInitialize h, fun _ hid => (Finmap.notMem_empty hid).elim, fun _ => rfl⟩
  watches w := by
    have hfw : (EnforceSystem.init fw).handler.fw = fw.tick := by
      simp [EnforceSystem.init, handlerInitialize, policyInitialize, HandlerState.boot, ikgtMalloc,
        h]
    have hboot : (EnforceSystem.init fw).handler.fw.watches w = false := by
      rw [hfw]
      exact hnone w
    rw [hboot]
    refine ⟨fun h => (Bool.false_ne_true h).elim, ?_⟩
    rintro ⟨g, row, -, -, -, hsome⟩
    exact (Bool.false_ne_true hsome).elim

/-- The settings that the handler has. -/
theorem settings (h : Deployed s l) (id : U32) :
    (s.handler.policies.lookup id).map Policy.setting = l.table id := by
  obtain ⟨map, hrefines, -, hsettings⟩ := h.policies
  rw [hrefines.policies_eq]
  exact hsettings id

/-- An operation that sends nothing. -/
theorem silent (h : Deployed s l) (op : CfgOp) (info : EventInfo) (env : Surroundings)
    (hsent : (s.fs.exec op).sent = none) :
    Deployed (enforceStep debug s (.user op info env)) (lockStep l op) := by
  have hhandler := s.handler_after debug op info env hsent
  have htable : (lockStep l op).table = l.table := by
    unfold lockStep
    rw [← h.fs, hsent]
    rfl
  refine ⟨?_, ?_, ?_⟩
  · exact congrArg (fun fs => (fs.exec op).fs) h.fs
  · rw [htable]
    exact hhandler.symm ▸ h.policies
  · rw [htable]
    exact hhandler.symm ▸ h.watches

/-- **One action.** -/
theorem step : Simulates (enforceStep debug) lockStep (fun _ a => a.op.toList)
    (fun _ a => NothingFails debug a) Deployed := by
  intro s l a h hno
  cases a with
  | event e =>
    obtain ⟨map, hrefines, hids, hsettings⟩ := h.policies
    rcases reportEvent_cases debug s.handler e with ⟨c, hc, -⟩ | ⟨-, hframe⟩
    · rw [show e.policyCommand debug = none from hno] at hc
      cases hc
    · exact ⟨h.fs, ⟨map, hrefines.frame hframe, hids, hsettings⟩,
        fun w => (Bool.eq_iff_iff.mp (hframe.watches w)).trans (h.watches w)⟩
  | user op info env =>
    change Deployed (enforceStep debug s (.user op info env)) (lockStep l op)
    have heffect := exec_effect s.fs op
    obtain ⟨result, hresult⟩ : ∃ result, result = s.fs.exec op := ⟨_, rfl⟩
    rw [← hresult] at heffect
    cases heffect with
    | quiet _ hsent => exact h.silent op info env (hresult ▸ hsent)
    | made _ _ _ _ _ hsent => exact h.silent _ info env (hresult ▸ hsent)
    | removed _ _ _ hsent => exact h.silent _ info env (hresult ▸ hsent)
    | wrote _ _ _ _ _ hsent => exact h.silent _ info env (hresult ▸ hsent)
    | stuck _ _ _ _ _ hsent => exact h.silent _ info env (hresult ▸ hsent)
    | @sent p page answers _ item value hitem hfree hvalue hallocated hitems hsent hret =>
      obtain ⟨-, hdelivered, hok⟩ := hno
      obtain ⟨map, hrefines, hids, hsettings⟩ := h.policies
      obtain ⟨enable, henable⟩ : ∃ enable, enable = decide (value ≠ 0) := ⟨_, rfl⟩
      rw [← henable] at hsent
      obtain ⟨hrefines', hwatches⟩ := reportEvent_policyMessage debug hrefines hok info item enable
      rw [receive_policyCommandOf hids] at hrefines'
      have hhandler : (enforceStep debug s (.user (.storeEnable p page answers) info env)).handler =
          reportEvent debug s.handler
            ⟨env, info, .msg (policyMessage item.cfg item.cfg.row enable)⟩ := by
        simp only [enforceStep, EnforceSystem.after, ← hresult, hsent]
      have hop : (CfgOp.storeEnable p page answers).delivered = true := hdelivered
      have htable : (lockStep l (.storeEnable p page answers)).table =
          Function.update l.table item.resource.code
            (policyMessage item.cfg item.cfg.row enable).asks := by
        simp only [lockStep, ← h.fs, ← hresult, hsent, tableAfter, hop, if_true]
        rfl
      refine ⟨congrArg (fun fs => (fs.exec (.storeEnable p page answers)).fs) h.fs,
        ⟨policyAfter map item.cfg enable, ?_, ids_policyAfter hids item.cfg enable, fun id => ?_⟩,
        fun w => ?_⟩
      · rw [hhandler]
        exact hrefines'
      · rw [htable, setting_policyAfter, funext hsettings]
        rfl
      · rw [hhandler, htable, monitored_update, hwatches w]
        by_cases hitem' : item.resource.isStar = false ∧
            item.group.concerns item.cfg.row w = true
        · rw [if_pos hitem', if_pos hitem']
        · rw [if_neg hitem', if_neg hitem']
          exact h.watches w

end Deployed

/-! ## Runs -/

/-- **The handler has what the driver sent.** In every run of configfs operations and other events
in which nothing fails and the handler gets no policy message but those of the driver: the handler's
table has the settings that the last message about each id asked for and no others, and the
framework monitors exactly the bits and MSRs of the resources with a setting, `STAR` and `LSTAR`
apart. -/
theorem handler_holds_sent {debug : Bool} {fw : Framework} (halloc : fw.nextOutcome = .success)
    (hnone : ∀ w, fw.watches w = false) {actions : List EnforceAction}
    (hok : ∀ a ∈ actions, NothingFails debug a) :
    let s := run (enforceStep debug) (.init fw) actions
    let l := run lockStep ⟨.empty, fun _ => none⟩ (actions.filterMap EnforceAction.op)
    s.fs = l.fs ∧ (∀ id, (s.handler.policies.lookup id).map Policy.setting = l.table id) ∧
      ∀ w, s.handler.fw.watches w = true ↔ Monitored l.table w := by
  intro s l
  have hrun := Deployed.step.run actions (.init halloc hnone)
    (steps_of_forall (fun _ _ h => h) actions hok)
  rw [trace_toList] at hrun
  exact ⟨hrun.fs, hrun.settings, hrun.watches⟩

/-- The handler has the policy of EFER, and nothing else is monitored. -/
theorem handler_holds_sent_efer :
    let s := run (enforceStep false) (.init .atBoot) (protectMsr "efer")
    let l := run lockStep ⟨.empty, fun _ => none⟩ ((protectMsr "efer").filterMap EnforceAction.op)
    s.fs = l.fs ∧ (∀ id, (s.handler.policies.lookup id).map Policy.setting = l.table id) ∧
      ∀ w, s.handler.fw.watches w = true ↔ Monitored l.table w :=
  @handler_holds_sent false .atBoot rfl (fun _ => rfl) _ (by
    intro a ha
    simp only [protectMsr, List.mem_cons, List.not_mem_nil, or_false] at ha
    rcases ha with rfl | rfl | rfl | rfl
    · trivial
    · trivial
    · trivial
    · exact ⟨rfl, rfl, fun _ => rfl⟩)

end IkgtUsage
