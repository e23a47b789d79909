import IkgtUsage.Policy.KeyOrder
import IkgtUsage.Protocol.Rules

/-!
# What a policy file means for the guest

The script makes its system calls, the driver sends its messages, the handler fills its table and
asks to monitor bits and MSRs, and the guest writes to its registers. For a document whose items
have `enable` last, all this comes to what the document says: `fileTable` reads the settings off the
document, the handler has these and no others (`policy_file_deployed`), and from then on, until the
driver sends another message, each register of each CPU goes where the rules of `fileTable` have it
(`policy_file_rules`). The exceptions are those of the rules.

Where `enable` is not last, a document does not come to what it says.
-/

namespace IkgtUsage

open Framework Lib

/-! ## The system calls of the script -/

/-- The operation of `echo value > key`. -/
def Cwd.echoOps (sh : Shell) (key value : List Char) : Cwd → List CfgOp
  | item p => ((CfgAttr.ofName key).map fun attr => attr.store p (sh.echo value)).toList
  | base | group _ => []

mutual

/-- The operations of the body of the loop, by the value. -/
def valueOps (sh : Shell) (cwd : Cwd) (key : List Char) : PolicyData → ScriptState → List CfgOp
  | .dict entries, s =>
    match cwd.mkdir key with
    | none => []
    | some op =>
      let (ok, s) := s.exec op
      op :: if ok then structureOps sh (cwd.chdir key) entries s else []
  | .text value, s =>
    if key ≠ logVal ∧ s.pathExists key cwd then cwd.echoOps sh key value else []

/-- The operations of the body of the loop. -/
def entryOps (sh : Shell) (cwd : Cwd) : DictEntry → ScriptState → List CfgOp
  | (key, value), s => valueOps sh cwd key value s

/-- The operations on the tree that `parse_and_create_dir_structure` makes, in order. -/
def structureOps (sh : Shell) (cwd : Cwd) : List DictEntry → ScriptState → List CfgOp
  | [], _ => []
  | entry :: rest, s =>
    entryOps sh cwd entry s ++
      let s := parseEntry sh cwd entry s
      if s.exited then [] else structureOps sh cwd rest s

end

/-- The operations on the tree that applying a policy file makes. -/
def applyOps (sh : Shell) (policyData : List DictEntry) : List CfgOp :=
  structureOps sh .base policyData .start

theorem sys_echoTo (sh : Shell) (s : ScriptState) (key value : List Char) (cwd : Cwd) :
    (s.echoTo sh key value cwd).sys = run lockStep s.sys (cwd.echoOps sh key value) := by
  cases cwd with
  | base => rfl
  | group dir => rfl
  | item p =>
    unfold ScriptState.echoTo Cwd.echoOps
    cases CfgAttr.ofName key with
    | none => rfl
    | some attr =>
      simp only
      split <;> rfl

mutual

theorem sys_parseValue (sh : Shell) (cwd : Cwd) (key : List Char) :
    ∀ (value : PolicyData) (s : ScriptState),
      (parseValue sh cwd key value s).sys = run lockStep s.sys (valueOps sh cwd key value s)
  | .text value, s => by
    rw [parseValue, valueOps]
    by_cases hkey : key = logVal
    · have hno : ¬ (key ≠ logVal ∧ s.pathExists key cwd = true) := fun h => h.1 hkey
      rw [if_pos hkey, if_neg hno]
      split <;> rfl
    · rw [if_neg hkey]
      by_cases hexists : s.pathExists key cwd = true
      · rw [if_pos hexists, if_pos ⟨hkey, hexists⟩]
        exact sys_echoTo sh s key value cwd
      · rw [if_neg hexists, if_neg fun h => hexists h.2]
        rfl
  | .dict entries, s => by
    rw [parseValue, valueOps]
    cases cwd.mkdir key with
    | none => rfl
    | some op =>
      simp only
      split
      · exact sys_parseAndCreateDirStructure sh (cwd.chdir key) entries (s.exec op).2
      · rfl

theorem sys_parseEntry (sh : Shell) (cwd : Cwd) :
    ∀ (entry : DictEntry) (s : ScriptState),
      (parseEntry sh cwd entry s).sys = run lockStep s.sys (entryOps sh cwd entry s)
  | (key, value), s => by
    rw [parseEntry, entryOps]
    exact sys_parseValue sh cwd key value s

/-- **The script changes the tree by its operations.** -/
theorem sys_parseAndCreateDirStructure (sh : Shell) (cwd : Cwd) :
    ∀ (entries : List DictEntry) (s : ScriptState),
      (parseAndCreateDirStructure sh cwd entries s).sys =
        run lockStep s.sys (structureOps sh cwd entries s)
  | [], s => by
    rw [parseAndCreateDirStructure, structureOps]
    rfl
  | entry :: rest, s => by
    rw [parseAndCreateDirStructure, structureOps, run_append, ← sys_parseEntry sh cwd entry s]
    simp only
    split
    · rfl
    · exact sys_parseAndCreateDirStructure sh cwd rest (parseEntry sh cwd entry s)

end

theorem sys_applyPolicy (sh : Shell) (policyData : List DictEntry) :
    (applyPolicy sh policyData).sys =
      run lockStep ⟨.empty, fun _ => none⟩ (applyOps sh policyData) :=
  sys_parseAndCreateDirStructure sh .base policyData .start

/-- The message of the operation, if it sends one, is allocated and delivered. -/
def CfgOp.Answered : CfgOp → Prop
  | storeEnable _ _ answers => answers.allocated = true ∧ answers.delivered = true
  | _ => True

theorem CfgOp.Answered.nothingFails {op : CfgOp} (h : op.Answered) (debug : Bool) (info : EventInfo)
    {env : Surroundings} (henv : ∀ n, env.outcome n = .success) :
    NothingFails debug (.user op info env) := by
  cases op with
  | storeEnable p page answers => exact ⟨h.1, h.2, henv⟩
  | mkdirGroup | rmdirGroup | mkdir | rmdir | storeWrite | storeStickyValue => trivial

/-- The operations made in the directories `C`, from which the script only goes to others of them,
are `P`. -/
structure OperationsIn (sh : Shell) (C : Cwd → Prop) (P : CfgOp → Prop) : Prop where
  chdir : ∀ {cwd} key, C cwd → C (cwd.chdir key)
  mkdir : ∀ {cwd key op}, C cwd → cwd.mkdir key = some op → P op
  echo : ∀ {cwd} key value, C cwd → ∀ op ∈ cwd.echoOps sh key value, P op

namespace OperationsIn

variable {sh : Shell} {C : Cwd → Prop} {P : CfgOp → Prop}

mutual

theorem valueOps (h : OperationsIn sh C P) {cwd : Cwd} (hcwd : C cwd) (key : List Char) :
    ∀ (value : PolicyData) (s : ScriptState), ∀ op ∈ valueOps sh cwd key value s, P op
  | .text value, s => by
    rw [IkgtUsage.valueOps]
    split
    · exact h.echo key value hcwd
    · exact fun _ h => nomatch h
  | .dict entries, s => by
    rw [IkgtUsage.valueOps]
    cases hop : cwd.mkdir key with
    | none => exact fun _ h => nomatch h
    | some op =>
      simp only [List.forall_mem_cons]
      refine ⟨h.mkdir hcwd hop, ?_⟩
      split
      · exact h.structureOps (h.chdir key hcwd) entries (s.exec op).2
      · exact fun _ h => nomatch h

theorem entryOps (h : OperationsIn sh C P) {cwd : Cwd} (hcwd : C cwd) :
    ∀ (entry : DictEntry) (s : ScriptState), ∀ op ∈ entryOps sh cwd entry s, P op
  | (key, value), s => by
    rw [IkgtUsage.entryOps]
    exact h.valueOps hcwd key value s

/-- The operations of a walk that starts in one of the directories. -/
theorem structureOps (h : OperationsIn sh C P) {cwd : Cwd} (hcwd : C cwd) :
    ∀ (entries : List DictEntry) (s : ScriptState), ∀ op ∈ structureOps sh cwd entries s, P op
  | [], s => by
    rw [IkgtUsage.structureOps]
    exact fun _ h => nomatch h
  | entry :: rest, s => by
    rw [IkgtUsage.structureOps, List.forall_mem_append]
    refine ⟨h.entryOps hcwd entry s, ?_⟩
    simp only
    split
    · exact fun _ h => nomatch h
    · exact h.structureOps hcwd rest (parseEntry sh cwd entry s)

end

end OperationsIn

theorem operationsIn_answered (sh : Shell) :
    OperationsIn sh (fun _ => True) CfgOp.Answered where
  chdir _ _ := trivial
  mkdir {cwd key op} _ h := by
    cases cwd with
    | base => rw [← Option.some_inj.mp h]; trivial
    | group dir => rw [← Option.some_inj.mp h]; trivial
    | item p => cases h
  echo {cwd} key value _ := by
    cases cwd with
    | base => exact fun _ h => nomatch h
    | group dir => exact fun _ h => nomatch h
    | item p =>
      intro op hop
      obtain ⟨attr, -, rfl⟩ := Option.map_eq_some_iff.mp (Option.mem_toList.mp hop)
      cases attr with
      | enable => exact ⟨rfl, rfl⟩
      | write | stickyValue => trivial

/-- The operations of the script are answered. -/
theorem answered_structureOps (sh : Shell) (cwd : Cwd) (entries : List DictEntry)
    (s : ScriptState) : ∀ op ∈ structureOps sh cwd entries s, op.Answered :=
  (operationsIn_answered sh).structureOps trivial entries s

/-! ## What a document says -/

/-- The number that the item stores to an attribute. -/
def ItemVisit.number (v : ItemVisit) (attr : CfgAttr) : Option U64 :=
  v.stores.findSome? fun store => (store.filter fun av => av.1 = attr).map Prod.snd

/-- The setting of the item, if it is enabled. -/
def ItemVisit.setting (v : ItemVisit) : Option Setting :=
  match v.number .enable, v.number .write, v.number .stickyValue with
  | some enable, some write, some stickyValue =>
    if enable ≠ 0 then some ⟨(write.truncate 8 : BitVec 8).zeroExtend 32, stickyValue⟩ else none
  | _, _, _ => none

/-- The setting of a visit for an id. -/
def Visit.settingFor (id : U32) : Visit → Option Setting
  | .stop => none
  | .item v => if v.resource.code = id then v.setting else none

/-- The settings of a document. -/
def fileTable (vs : List Visit) (id : U32) : Option Setting := vs.findSome? (Visit.settingFor id)

/-- There is an item of the id. -/
def Visit.isFor (id : U32) : Visit → Bool
  | .stop => false
  | .item v => v.resource.code = id

/-- The settings of the visits over older ones, which stay where there is no item of the id. -/
def overlay (table : U32 → Option Setting) (vs : List Visit) (id : U32) : Option Setting :=
  if vs.any (Visit.isFor id) then fileTable vs id else table id

/-- The item stores numbers, and `enable` last. -/
def ItemVisit.StoresLast (v : ItemVisit) (value : CfgAttr → U64) : Prop :=
  v.stores = [some (.write, value .write), some (.stickyValue, value .stickyValue),
      some (.enable, value .enable)] ∨
    v.stores = [some (.stickyValue, value .stickyValue), some (.write, value .write),
      some (.enable, value .enable)]

/-- The settings that are stored. -/
def Settings.of (value : CfgAttr → U64) : Settings :=
  ⟨value .enable ≠ 0, isSticky ((value .write).truncate 8), (value .write).truncate 8,
    value .stickyValue⟩

/-- No command fails, all items have `enable` last, and there is one item per resource. -/
structure EnableLast (vs : List Visit) : Prop where
  stop : .stop ∉ vs
  numbers : ∀ v, .item v ∈ vs → ∃ value, v.StoresLast value
  alone : ∀ v w, .item v ∈ vs → .item w ∈ vs → v.resource = w.resource → w.path = v.path

namespace ItemVisit.StoresLast

variable {v : ItemVisit} {value : CfgAttr → U64}

theorem number_eq (h : v.StoresLast value) (attr : CfgAttr) :
    v.number attr = some (value attr) := by
  unfold ItemVisit.number
  rcases h with h | h <;> cases attr <;> simp [h, Option.filter]

theorem setting_eq (h : v.StoresLast value) :
    v.setting = if value .enable ≠ 0 then
        some ⟨((value .write).truncate 8 : BitVec 8).zeroExtend 32, value .stickyValue⟩
      else none := by
  unfold ItemVisit.setting
  rw [h.number_eq, h.number_eq, h.number_eq]

/-- **An item with `enable` last** is as stored, and its message asks for what it says. -/
theorem run_eq (h : v.StoresLast value) : v.run = ⟨.of value, some v.setting, false⟩ := by
  rw [h.setting_eq]
  unfold ItemVisit.run Settings.of
  rcases h with h | h <;> simp [h, ItemRun.stores, ItemRun.store, ItemRun.fresh]

end ItemVisit.StoresLast

/-- Items with `enable` last, one per resource. -/
theorem enableLast_items {items : List ItemVisit}
    (hnumbers : ∀ v ∈ items, ∃ value, v.StoresLast value)
    (halone : ∀ v ∈ items, ∀ w ∈ items, v.resource = w.resource → w.path = v.path) :
    EnableLast (items.map .item) := by
  have hmem : ∀ {v : ItemVisit}, Visit.item v ∈ items.map .item → v ∈ items := by
    intro v hv
    obtain ⟨w, hw, heq⟩ := List.mem_map.mp hv
    rwa [← Visit.item.inj heq]
  refine ⟨fun hstop => ?_, fun v hv => hnumbers v (hmem hv),
    fun v w hv hw => halone v (hmem hv) w (hmem hw)⟩
  obtain ⟨v, -, heq⟩ := List.mem_map.mp hstop
  cases heq

section Document

variable {sh : Shell} {policyData : List DictEntry}

theorem EnableLast.noneExits {vs : List Visit} (h : EnableLast vs) : NoneExits vs := by
  intro x hx
  cases x with
  | stop => exact absurd hx h.stop
  | item v =>
    obtain ⟨value, hvalue⟩ := h.numbers v hx
    exact ⟨v, rfl, by rw [hvalue.run_eq]⟩

/-- An item with the setting of its resource. -/
theorem EnableLast.tablePair {vs : List Visit} (h : EnableLast vs) {v : ItemVisit}
    (hv : .item v ∈ vs) : Visit.tablePair (.item v) = some (v.resource.code, v.setting) := by
  obtain ⟨value, hvalue⟩ := h.numbers v hv
  rw [Visit.tablePair, hvalue.run_eq]
  rfl

/-- The only item of a resource says its setting. -/
theorem EnableLast.fileTable_eq (h : EnableLast (visitsOf sh policyData))
    (hdocument : IsPolicyDocument policyData) {v : ItemVisit}
    (hv : .item v ∈ visitsOf sh policyData) :
    fileTable (visitsOf sh policyData) v.resource.code = v.setting := by
  refine findSome?_of_agree (fun x hx setting hsetting => ?_) ⟨_, hv, if_pos rfl⟩
  cases x with
  | stop => cases hsetting
  | item w =>
    rw [Visit.settingFor] at hsetting
    split at hsetting
    · rename_i hcode
      have hpath := h.alone v w hv hx (ResourceId.code_injective hcode).symm
      rwa [← hdocument.eq_of_path hv hx hpath]
    · cases hsetting

theorem any_isFor {vs : List Visit} {id : U32} :
    vs.any (Visit.isFor id) = true ↔ ∃ v, Visit.item v ∈ vs ∧ v.resource.code = id := by
  rw [List.any_eq_true]
  constructor
  · rintro ⟨x, hx, hfor⟩
    cases x with
    | stop => cases hfor
    | item v => exact ⟨v, hx, of_decide_eq_true hfor⟩
  · rintro ⟨v, hv, hid⟩
    exact ⟨_, hv, decide_eq_true hid⟩

/-- Over no settings there are those of the visits. -/
theorem overlay_none (vs : List Visit) : overlay (fun _ => none) vs = fileTable vs := by
  funext id
  unfold overlay
  by_cases hany : vs.any (Visit.isFor id) = true
  · rw [if_pos hany]
  · rw [if_neg hany]
    refine (List.findSome?_eq_none_iff.mpr fun x hx => ?_).symm
    cases x with
    | stop => rfl
    | item v => exact if_neg fun hid => hany (any_isFor.mpr ⟨v, hx, hid⟩)

/-- **What the visits come to**, for a document with `enable` last: the settings of the document,
and each item as the document has it. -/
theorem EnableLast.outcome (h : EnableLast (visitsOf sh policyData))
    (hdocument : IsPolicyDocument policyData) {o : Outcome} (hrun : o.exited = false) :
    let o' := Outcome.visits (visitsOf sh policyData) o
    o'.exited = false ∧ o'.table = overlay o.table (visitsOf sh policyData) ∧
      ∀ v, .item v ∈ visitsOf sh policyData →
        o'.items v.path = some (v.withSettings v.run.settings) := by
  intro o'
  have ho' : o' = _ := Outcome.visits_eq_assign h.noneExits hrun
  rw [ho']
  refine ⟨rfl, ?_, fun v hv => ?_⟩
  · have hone : OneValue ((visitsOf sh policyData).filterMap Visit.tablePair) := by
      intro code asked asked' hasked hasked'
      obtain ⟨x, hx, hxc⟩ := List.mem_filterMap.mp hasked
      obtain ⟨y, hy, hyc⟩ := List.mem_filterMap.mp hasked'
      cases x with
      | stop => cases hxc
      | item v =>
        cases y with
        | stop => cases hyc
        | item w =>
          rw [h.tablePair hx] at hxc
          rw [h.tablePair hy] at hyc
          obtain ⟨rfl, rfl⟩ := Prod.mk.inj (Option.some_inj.mp hxc)
          obtain ⟨hcode, rfl⟩ := Prod.mk.inj (Option.some_inj.mp hyc)
          rw [← h.fileTable_eq hdocument hx, ← h.fileTable_eq hdocument hy, hcode]
    funext id
    unfold overlay
    by_cases hany : (visitsOf sh policyData).any (Visit.isFor id) = true
    · obtain ⟨v, hv, rfl⟩ := any_isFor.mp hany
      rw [if_pos hany, h.fileTable_eq hdocument hv]
      exact assign_of_mem hone (List.mem_filterMap.mpr ⟨_, hv, h.tablePair hv⟩) _
    · rw [if_neg hany]
      refine assign_of_notMem (fun asked hasked => ?_) _
      obtain ⟨x, hx, hxc⟩ := List.mem_filterMap.mp hasked
      cases x with
      | stop => cases hxc
      | item v =>
        rw [h.tablePair hx] at hxc
        exact hany (any_isFor.mpr ⟨v, hx, (Prod.mk.inj (Option.some_inj.mp hxc)).1⟩)
  · have hone : OneValue ((visitsOf sh policyData).filterMap Visit.itemPair) := by
      intro p item item' hitem hitem'
      obtain ⟨x, hx, hxp⟩ := List.mem_filterMap.mp hitem
      obtain ⟨y, hy, hyp⟩ := List.mem_filterMap.mp hitem'
      cases x with
      | stop => cases hxp
      | item v =>
        cases y with
        | stop => cases hyp
        | item w =>
          obtain ⟨rfl, rfl⟩ := Prod.mk.inj (Option.some_inj.mp hxp)
          obtain ⟨hpath, rfl⟩ := Prod.mk.inj (Option.some_inj.mp hyp)
          rw [hdocument.eq_of_path hx hy hpath]
    exact assign_of_mem hone (List.mem_filterMap.mpr ⟨_, hv, rfl⟩) _

/-- **What the script leaves**, for such a document. -/
theorem EnableLast.applyPolicy (h : EnableLast (visitsOf sh policyData))
    (hdocument : IsPolicyDocument policyData) :
    (applyPolicy sh policyData).sys.table = fileTable (visitsOf sh policyData) ∧
      ∀ v value, .item v ∈ visitsOf sh policyData → v.StoresLast value →
        (applyPolicy sh policyData).sys.fs.items.lookup v.path =
          some (v.withSettings (.of value)) := by
  have houtcome := outcome_applyPolicy sh hdocument
  obtain ⟨-, htable, hitems⟩ := h.outcome hdocument (o := .start) rfl
  rw [← houtcome] at htable hitems
  refine ⟨htable.trans (overlay_none _), fun v value hv hvalue => ?_⟩
  refine (hitems v hv).trans ?_
  rw [hvalue.run_eq]

end Document

/-! ## Driver and handler -/

/-- **The handler has what the file says.** A policy document with `enable` last is applied: the
operations of the user are those of the script, among other events in any order, and nothing fails.
Then the handler has the settings of the document and no others, what is monitored is what they
stand for, and every item is in the tree with what the document has for it. For `STAR` and `LSTAR`
nothing is monitored (`Monitored`), though the handler has the setting. -/
theorem policy_file_deployed {debug : Bool} {fw : Framework} (halloc : fw.nextOutcome = .success)
    (hnone : ∀ w, fw.watches w = false) {sh : Shell} {policyData : List DictEntry}
    (hdocument : IsPolicyDocument policyData) (hlast : EnableLast (visitsOf sh policyData))
    {actions : List EnforceAction} (hok : ∀ a ∈ actions, NothingFails debug a)
    (hops : actions.filterMap EnforceAction.op = applyOps sh policyData) :
    let s := run (enforceStep debug) (.init fw) actions
    (∀ id, (s.handler.policies.lookup id).map Policy.setting =
        fileTable (visitsOf sh policyData) id) ∧
      (∀ w, s.handler.fw.watches w = true ↔ Monitored (fileTable (visitsOf sh policyData)) w) ∧
      ∀ v value, .item v ∈ visitsOf sh policyData → v.StoresLast value →
        s.fs.items.lookup v.path = some (v.withSettings (.of value)) := by
  intro s
  have hrun := Deployed.step.run actions (.init halloc hnone)
    (steps_of_forall (fun _ _ h => h) actions hok)
  rw [trace_toList, hops, ← sys_applyPolicy] at hrun
  obtain ⟨htable, hitems⟩ := hlast.applyPolicy hdocument
  refine ⟨fun id => ?_, fun w => ?_, fun v value hv hvalue => ?_⟩
  · rw [← htable]
    exact hrun.settings id
  · rw [← htable]
    exact hrun.watches w
  · rw [hrun.fs]
    exact hitems v value hv hvalue

/-- An item with `enable` last. -/
def lastPolicy (enable write stickyValue : String) : PolicyData :=
  .dict [(CfgAttr.write.name, .text write.toList),
    (CfgAttr.stickyValue.name, .text stickyValue.toList),
    (CfgAttr.enable.name, .text enable.toList)]

/-- `policy.json`, with `enable` last in every item. -/
def policyJsonLast : List DictEntry :=
  [("cr0".toList, .dict [("pg".toList, lastPolicy "1" "3" "0"),
      ("wp".toList, lastPolicy "1" "1" "0")]),
    ("cr4".toList, .dict [("pae".toList, lastPolicy "1" "3" "0")]),
    ("msr".toList, .dict [("efer".toList, lastPolicy "1" "3" "0")]),
    ("log".toList, .dict [("log.txt".toList, .text "/configfs/ikgt_agent/log/log.txt".toList)])]

theorem reordered_lastPolicy (enable write stickyValue : String) :
    Reordered (itemPolicy enable write stickyValue) (lastPolicy enable write stickyValue) :=
  .of_perm (List.perm_append_singleton _ [_, _]).symm

theorem isPolicyDocument_policyJsonLast : IsPolicyDocument policyJsonLast := by
  refine isPolicyDocument_policyJson.reordered (.dict (.refl _) ?_)
  have hitem := reordered_lastPolicy
  exact .cons (.dict (.refl _) (.cons (hitem _ _ _) (.cons (hitem _ _ _) .nil)))
    (.cons (.dict (.refl _) (.cons (hitem _ _ _) .nil))
      (.cons (.dict (.refl _) (.cons (hitem _ _ _) .nil)) (.cons (.refl _) .nil)))

/-- Numbers for the attributes. -/
def CfgAttr.values (forEnable forWrite forStickyValue : U64) : CfgAttr → U64
  | enable => forEnable
  | write => forWrite
  | stickyValue => forStickyValue

/-- The items of `policyJsonLast`. -/
def policyJsonItems : List ItemVisit :=
  let stores (write stickyValue enable : U64) : List (Option (CfgAttr × U64)) :=
    [some (.write, write), some (.stickyValue, stickyValue), some (.enable, enable)]
  [⟨⟨"cr0".toList, "pg".toList⟩, .cr0, ⟨"pg".toList, by decide⟩, stores 3 0 1⟩,
    ⟨⟨"cr0".toList, "wp".toList⟩, .cr0, ⟨"wp".toList, by decide⟩, stores 1 0 1⟩,
    ⟨⟨"cr4".toList, "pae".toList⟩, .cr4, ⟨"pae".toList, by decide⟩, stores 3 0 1⟩,
    ⟨⟨"msr".toList, "efer".toList⟩, .msr, ⟨"efer".toList, by decide⟩, stores 3 0 1⟩]

theorem visitsOf_policyJsonLast :
    visitsOf .plain policyJsonLast = policyJsonItems.map .item := rfl

theorem enableLast_policyJsonLast : EnableLast (visitsOf .plain policyJsonLast) := by
  rw [visitsOf_policyJsonLast]
  refine enableLast_items (fun v hv => ?_) (by decide +kernel)
  have hstores : ∃ write stickyValue enable, v.stores =
      [some (.write, write), some (.stickyValue, stickyValue), some (.enable, enable)] := by
    simp only [policyJsonItems, List.mem_cons, List.not_mem_nil, or_false] at hv
    rcases hv with rfl | rfl | rfl | rfl <;> exact ⟨_, _, _, rfl⟩
  obtain ⟨write, stickyValue, enable, h⟩ := hstores
  exact ⟨CfgAttr.values enable write stickyValue, Or.inl h⟩

theorem filterMap_op_userAction (ops : List CfgOp) :
    (ops.map userAction).filterMap EnforceAction.op = ops := by
  rw [List.filterMap_map]
  exact List.filterMap_some

/-- The handler has what `policy.json` says of EFER, and nothing for STAR. -/
theorem policy_file_deployed_policyJson :
    let s := run (enforceStep false) (.init .atBoot)
      ((applyOps .plain policyJsonLast).map userAction)
    (s.handler.policies.lookup ResourceId.msrEfer.code).map Policy.setting = some ⟨3, 0⟩ ∧
      (s.handler.policies.lookup ResourceId.msrStar.code).map Policy.setting = none := by
  intro s
  have hok : ∀ a ∈ (applyOps .plain policyJsonLast).map userAction, NothingFails false a :=
    List.forall_mem_map.mpr fun op hop =>
      (answered_structureOps _ _ _ _ op hop).nothingFails false ⟨0, 0, 0⟩ fun _ => rfl
  have hdeployed := @policy_file_deployed false .atBoot rfl (fun _ => rfl) _ _
    isPolicyDocument_policyJsonLast enableLast_policyJsonLast _ hok (filterMap_op_userAction _)
  exact ⟨(hdeployed.1 _).trans (by decide +kernel), (hdeployed.1 _).trans (by decide +kernel)⟩

/-! ## The guest -/

/-- The driver sends no message. -/
def Machine.SendsNothing (m : Machine) (a : MachineAction) : Prop :=
  ∀ op, a.op = some op → (m.sys.fs.exec op).sent = none

/-- Without a message the settings last asked for are the same. -/
theorem Deployed.table_of_sendsNothing {m : Machine} {l : LockSystem} (h : Deployed m.sys l)
    {a : MachineAction} (ha : m.SendsNothing a) :
    (run lockStep l a.op.toList).table = l.table := by
  cases hop : a.op with
  | none => rfl
  | some op =>
    have hsent := ha op hop
    rw [h.fs] at hsent
    change tableAfter op l.table (l.fs.exec op).sent = l.table
    rw [hsent]
    rfl

/-- The registers under fixed rules. -/
theorem Machine.RuledBy.regs_run {debug : Bool} {m : Machine} {s : Ruled} (h : m.RuledBy s)
    {actions : List MachineAction}
    (hok : Steps (machineStep debug) (Machine.Covered debug) m actions)
    (hquiet : Steps (machineStep debug) Machine.SendsNothing m actions) :
    (Lib.run (machineStep debug) m actions).regs =
      Lib.run (fun g a => g.after (ruleOf s.driver.table) a) m.regs actions := by
  obtain ⟨table, htable⟩ : ∃ table, table = s.driver.table := ⟨_, rfl⟩
  rw [← htable]
  have hstep : Simulates (machineStep debug) (fun g a => GuestRegs.after g (ruleOf table) a)
      (fun _ a => [a]) (fun m a => m.Covered debug a ∧ m.SendsNothing a)
      fun m g => ∃ s : Ruled, m.RuledBy s ∧ s.driver.table = table ∧ s.regs = g := by
    rintro m g a ⟨s, hs, htable, rfl⟩ ⟨hok, hquiet⟩
    refine ⟨ruledStep s a, Machine.RuledBy.step m s a hs hok, ?_, ?_⟩
    · rw [← htable]
      exact hs.deployed.table_of_sendsNothing hquiet
    · rw [← htable]
      rfl
  obtain ⟨s', hs', -, hregs⟩ :=
    hstep.run actions ⟨s, h, htable.symm, rfl⟩ (hok.and hquiet)
  rw [trace_self] at hregs
  rw [hs'.regs, hregs, h.regs]

/-- **The registers follow the file.** A policy document with `enable` last is applied in `before`,
in which the guest may do anything. From then on, as long as the driver sends no message, each bit
of CR0 and CR4 and each MSR goes on each CPU where the rules of the document have it. `STAR` and
`LSTAR` have no rules (`ruledRows`). All steps are covered: each WRMSR has 32 bits in RCX, and
writes to control registers are reported on CPUs below 128 only. -/
theorem policy_file_rules {debug : Bool} {fw : Framework} (halloc : fw.nextOutcome = .success)
    (hnone : ∀ w, fw.watches w = false) {reg : Nat → VmcsReg → U64} {msr : Nat → U32 → U64}
    {sh : Shell} {policyData : List DictEntry} (hdocument : IsPolicyDocument policyData)
    (hlast : EnableLast (visitsOf sh policyData)) {before after : List MachineAction}
    (hok : Steps (machineStep debug) (Machine.Covered debug) (.init fw reg msr) (before ++ after))
    (hops : before.filterMap MachineAction.op = applyOps sh policyData)
    (hquiet : Steps (machineStep debug) Machine.SendsNothing
      (run (machineStep debug) (.init fw reg msr) before) after) :
    (run (machineStep debug) (.init fw reg msr) (before ++ after)).regs =
      run (fun g a => g.after (ruleOf (fileTable (visitsOf sh policyData))) a)
        (run (machineStep debug) (.init fw reg msr) before).regs after := by
  obtain ⟨hbefore, hafter⟩ := steps_append.mp hok
  have hruled := (Machine.RuledBy.init halloc hnone reg msr).run hbefore
  rw [run_append, hruled.regs_run hafter hquiet, driver_run, hops, ← sys_applyPolicy,
    (hlast.applyPolicy hdocument).1]

theorem filterMap_op_userStep (ops : List CfgOp) :
    (ops.map userStep).filterMap MachineAction.op = ops := by
  rw [List.filterMap_map]
  exact List.filterMap_some

/-- An answered operation of the user is covered. -/
theorem CfgOp.Answered.covered {op : CfgOp} (h : op.Answered) (debug : Bool) (m : Machine) :
    m.Covered debug (userStep op) :=
  ⟨⟨trivial, trivial, h.nothingFails debug ⟨0, 0, 0⟩ fun _ => rfl⟩, trivial⟩

/-- What the user does leaves the registers. -/
theorem regs_run_userStep (debug : Bool) : ∀ (ops : List CfgOp) (m : Machine),
    (run (machineStep debug) m (ops.map userStep)).regs = m.regs
  | [], _ => rfl
  | op :: ops, m => by
    rw [List.map_cons, run_cons, regs_run_userStep debug ops]
    refine GuestRegs.ext ?_ rfl
    funext cpu cr b
    refine congrArg (fun value : U64 => value.getLsbD b)
      (Machine.cr_system (a := userAction op) ?_ cr)
    intro e h
    cases h

theorem Machine.getLsbD_cr {m : Machine} {g : GuestRegs} (h : m.regs = g) (cpu : Nat) (cr : GuestCr)
    (b : Nat) : (m.cr cpu cr).getLsbD b = g.cr cpu cr b := by
  rw [← h]
  rfl

theorem Machine.msr_eq {m : Machine} {g : GuestRegs} (h : m.regs = g) : m.msr = g.msr := by
  rw [← h]
  rfl

/-- CPU 1 clears CR0 and writes to EFER. -/
def clearCr0 : List MachineAction :=
  [.crWrite 1 .cr0 .rax 0 true ⟨1, 0, 0⟩ .cooperative,
    .msrWrite 1 0xC0000080 0 0x500 true ⟨1, 0, 0⟩ .cooperative]

/-- `policy.json` is applied: PG and EFER stay as they are, and WP, which has LOG only, is cleared.
-/
theorem policy_file_rules_policyJson :
    let start := Machine.init .atBoot (fun _ => Function.update (fun _ => 0) .cr0 0x80010000)
      fun _ _ => 7
    let m' := run (machineStep false) start
      ((applyOps .plain policyJsonLast).map userStep ++ clearCr0)
    (m'.cr 1 .cr0).getLsbD 31 = true ∧ (m'.cr 1 .cr0).getLsbD 16 = false ∧
      m'.msr 1 0xC0000080 = 7 := by
  intro start m'
  have hscript : Steps (machineStep false) (Machine.Covered false) start
      ((applyOps .plain policyJsonLast).map userStep) :=
    steps_of_forall (P := fun a => ∀ m : Machine, m.Covered false a) (fun m _ h => h m) _
      (List.forall_mem_map.mpr fun op hop m =>
        (answered_structureOps _ _ _ _ op hop).covered false m)
  have hwrites : ∀ m, Steps (machineStep false) (Machine.Covered false) m clearCr0 := fun m =>
    ⟨⟨⟨⟨Or.inl rfl, fun _ => rfl⟩, trivial, trivial⟩, (by decide : 1 < 128)⟩,
      ⟨⟨⟨Or.inl rfl, fun _ => rfl⟩, (by decide : (0xC0000080 : U64).toNat < 2 ^ 32), trivial⟩,
        trivial⟩, trivial⟩
  have hquiet : ∀ m, Steps (machineStep false) Machine.SendsNothing m clearCr0 := fun m =>
    ⟨(fun _ h => nomatch h), (fun _ h => nomatch h), trivial⟩
  have hrules := policy_file_rules rfl (fun _ => rfl) isPolicyDocument_policyJsonLast
    enableLast_policyJsonLast (steps_append.mpr ⟨hscript, hwrites _⟩) (filterMap_op_userStep _)
    (hquiet _)
  have hregs : m'.regs = _ := hrules
  rw [Machine.getLsbD_cr hregs, Machine.getLsbD_cr hregs, Machine.msr_eq hregs, regs_run_userStep]
  decide +kernel

end IkgtUsage
