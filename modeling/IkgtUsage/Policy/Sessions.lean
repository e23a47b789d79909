import IkgtUsage.Policy.Applied

/-!
# `policy/parse_policy.py`: one call of the script after another

With `-r` the script removes the directories that a policy file names, with all that is in them. The
driver sends nothing for an item that is removed, so the handler keeps its policies; and the lock
goes with the item. A section whose directory is there is passed over by the next call that would
make it.

`Sections` says what any sequence of calls comes to: which section each directory was made from, and
for each resource what the last section with an item of it has said. The tree and the handler follow
it (`Matches.run`), and the registers of the guest follow its settings (`calls_rule`).
-/

namespace IkgtUsage

open Framework Lib

/-! ## Removing directories -/

/-- What `os.listdir` answers: the names of all items of a directory, among those of its attributes,
in any order. -/
structure Listing where
  names : Configfs → List Char → List (List Char)
  mem_names : ∀ {fs : Configfs} {p : Path}, p ∈ fs.items → p.name ∈ names fs p.dir

/-- The items in the order the tree has them. -/
def Listing.plain : Listing where
  names fs dir := (fs.items.keys.filter fun p => p.dir = dir).map Path.name
  mem_names hp := List.mem_map.mpr ⟨_, List.mem_filter.mpr ⟨hp, decide_eq_true rfl⟩, rfl⟩

/-- The operations of `shutil.rmtree(key, ignore_errors=True)`, which removes what `os.listdir`
finds in the directory and then the directory. Attributes cannot be removed. -/
def rmtreeOps (listdir : Listing) (fs : Configfs) (key : List Char) : List CfgOp :=
  let names := if key ∈ fs.groups then listdir.names fs key else []
  let items := (names.map (Path.mk key)).filter fun p => p ∈ fs.items
  items.map .rmdir ++ [.rmdirGroup key]

/-- The operations of `parse_and_remove_dir_structure`. No error is reported. -/
def removeOps (listdir : Listing) : List DictEntry → Configfs → List CfgOp
  | [], _ => []
  | (key, _) :: rest, fs =>
    let ops := rmtreeOps listdir fs key
    ops ++ removeOps listdir rest (run Configfs.step fs ops)

theorem fs_run (ops : List CfgOp) : ∀ s : LockSystem,
    (run lockStep s ops).fs = run Configfs.step s.fs ops := by
  induction ops with
  | nil => exact fun _ => rfl
  | cons op ops ih => exact fun s => ih (lockStep s op)

/-- Items are removed; nothing is sent. -/
theorem run_rmdir (ps : List Path) : ∀ s : LockSystem,
    let s' := run lockStep s (ps.map .rmdir)
    s'.fs.groups = s.fs.groups ∧ s'.table = s.table ∧
      ∀ p, s'.fs.items.lookup p = if p ∈ ps then none else s.fs.items.lookup p := by
  induction ps with
  | nil => exact fun s => ⟨rfl, rfl, fun p => (if_neg List.not_mem_nil).symm⟩
  | cons q ps ih =>
    intro s
    obtain ⟨hgroups, htable, hitems⟩ := ih (lockStep s (.rmdir q))
    have hstep : (lockStep s (.rmdir q)).fs.groups = s.fs.groups ∧
        (lockStep s (.rmdir q)).table = s.table ∧
        ∀ p, (lockStep s (.rmdir q)).fs.items.lookup p =
          if p = q then none else s.fs.items.lookup p := by
      have hexec : s.fs.exec (.rmdir q) = if q ∉ s.fs.items then s.fs.fail .enoent
          else ⟨{ s.fs with items := s.fs.items.erase q }, none, .ok 0⟩ := rfl
      unfold lockStep
      rw [hexec]
      by_cases hq : q ∈ s.fs.items
      · rw [if_neg (not_not.mpr hq)]
        refine ⟨rfl, rfl, fun p => ?_⟩
        by_cases hp : p = q
        · rw [if_pos hp, hp]
          exact AList.lookup_erase _ _
        · rw [if_neg hp]
          exact AList.lookup_erase_ne hp
      · rw [if_pos hq]
        refine ⟨rfl, rfl, fun p => ?_⟩
        by_cases hp : p = q
        · rw [if_pos hp, hp]
          exact AList.lookup_eq_none.mpr hq
        · rw [if_neg hp]
          rfl
    refine ⟨hgroups.trans hstep.1, htable.trans hstep.2.1, fun p => (hitems p).trans ?_⟩
    rw [hstep.2.2 p]
    by_cases hp : p = q
    · rw [if_pos hp, if_pos (List.mem_cons.mpr (Or.inl hp)), ite_self]
    · rw [if_neg hp]
      simp only [List.mem_cons, hp, false_or]

/-- An empty directory is removed. -/
theorem lockStep_rmdirGroup {s : LockSystem} {key : List Char}
    (hempty : ∀ p : Path, p.dir = key → s.fs.items.lookup p = none) :
    let s' := lockStep s (.rmdirGroup key)
    s'.fs.items = s.fs.items ∧ s'.table = s.table ∧
      ∀ dir, dir ∈ s'.fs.groups ↔ dir ≠ key ∧ dir ∈ s.fs.groups := by
  have hexec : s.fs.exec (.rmdirGroup key) = if key ∉ s.fs.groups then s.fs.fail .enoent
      else if s.fs.items.keys.any fun p => p.dir = key then s.fs.fail .enotempty
      else ⟨{ s.fs with groups := s.fs.groups.erase key }, none, .ok 0⟩ := rfl
  unfold lockStep
  rw [hexec]
  by_cases hkey : key ∈ s.fs.groups
  · have hno : (s.fs.items.keys.any fun p => p.dir = key) = false := by
      rw [List.any_eq_false]
      intro p hp hdir
      exact AList.lookup_eq_none.mp (hempty p (of_decide_eq_true hdir)) hp
    rw [if_neg (not_not.mpr hkey), if_neg (ne_true_of_eq_false hno)]
    exact ⟨rfl, rfl, fun dir => AList.mem_erase⟩
  · rw [if_pos hkey]
    refine ⟨rfl, rfl, fun dir => ⟨fun hdir => ⟨?_, hdir⟩, And.right⟩⟩
    rintro rfl
    exact hkey hdir

/-- **`rmtree`** removes the directory and its items, and sends nothing. -/
theorem run_rmtreeOps (listdir : Listing) {s : LockSystem} (key : List Char)
    (hroot : ∀ p, s.fs.items.lookup p ≠ none → p.dir ∈ s.fs.groups) :
    let s' := run lockStep s (rmtreeOps listdir s.fs key)
    s'.table = s.table ∧ (∀ dir, dir ∈ s'.fs.groups ↔ dir ≠ key ∧ dir ∈ s.fs.groups) ∧
      ∀ p, s'.fs.items.lookup p = if p.dir = key then none else s.fs.items.lookup p := by
  obtain ⟨ps, hps⟩ : ∃ ps, ps =
      ((if key ∈ s.fs.groups then listdir.names s.fs key else []).map (Path.mk key)).filter
        fun p => p ∈ s.fs.items := ⟨_, rfl⟩
  have hops : rmtreeOps listdir s.fs key = ps.map .rmdir ++ [.rmdirGroup key] := by
    rw [hps]
    rfl
  have hmem : ∀ p, s.fs.items.lookup p ≠ none → (p ∈ ps ↔ p.dir = key) := by
    intro p hitem
    have hp : p ∈ s.fs.items := by
      by_contra hno
      exact hitem (AList.lookup_eq_none.mpr hno)
    rw [hps, List.mem_filter, List.mem_map]
    constructor
    · rintro ⟨⟨name, -, rfl⟩, -⟩
      rfl
    · rintro rfl
      rw [if_pos (hroot p hitem)]
      exact ⟨⟨p.name, listdir.mem_names hp, rfl⟩, decide_eq_true hp⟩
  obtain ⟨hgroups, htable, hitems⟩ := run_rmdir ps s
  have hitems' : ∀ p, (run lockStep s (ps.map .rmdir)).fs.items.lookup p =
      if p.dir = key then none else s.fs.items.lookup p := by
    intro p
    rw [hitems p]
    by_cases hitem : s.fs.items.lookup p = none
    · rw [hitem, ite_self, ite_self]
    · exact if_congr (hmem p hitem) rfl rfl
  have hempty : ∀ p : Path, p.dir = key →
      (run lockStep s (ps.map .rmdir)).fs.items.lookup p = none :=
    fun p hp => (hitems' p).trans (if_pos hp)
  obtain ⟨hitems₂, htable₂, hgroups₂⟩ := lockStep_rmdirGroup hempty
  rw [hops, run_append]
  refine ⟨htable₂.trans htable, fun dir => (hgroups₂ dir).trans ?_, fun p => ?_⟩
  · rw [hgroups]
  · exact (congrArg (AList.lookup p) hitems₂).trans (hitems' p)

/-! ## Calls -/

/-- A call of the script, without `-r` or with it. -/
inductive Call
  | apply (policyData : List DictEntry)
  | remove (policyData : List DictEntry)

/-- The operations of a call. -/
def Call.ops (sh : Shell) (listdir : Listing) (s : LockSystem) : Call → List CfgOp
  | apply policyData => structureOps sh .base policyData ⟨s, false⟩
  | remove policyData => removeOps listdir policyData s.fs

/-- The operations of calls, each of which is made after the one before has ended. -/
def callOps (sh : Shell) (listdir : Listing) : List Call → LockSystem → List CfgOp
  | [], _ => []
  | call :: calls, s =>
    let ops := call.ops sh listdir s
    ops ++ callOps sh listdir calls (run lockStep s ops)

/-! ## What the calls come to -/

/-- The section each directory was made from, and what was said last of each id. -/
structure Sections where
  sectionOf : List Char → Option (List DictEntry)
  table : U32 → Option Setting

namespace Sections

/-- There are no directories, and nothing was said. -/
def empty : Sections := ⟨fun _ => none, fun _ => none⟩

/-- A section makes its directory, unless there is one or the driver gives it no type. -/
def add (sh : Shell) (s : Sections) : DictEntry → Sections
  | (_, .text _) => s
  | (key, .dict entries) =>
    if (s.sectionOf key).isSome ∨ groupChildrenMakeGroup key = none then s
    else ⟨Function.update s.sectionOf key (some entries),
      overlay s.table (sectionVisits sh (key, .dict entries))⟩

/-- A directory is removed. What was said stays. -/
def remove (s : Sections) (entry : DictEntry) : Sections :=
  { s with sectionOf := Function.update s.sectionOf entry.1 none }

/-- A call of the script. -/
def call (sh : Shell) (s : Sections) : Call → Sections
  | .apply policyData => run (add sh) s policyData
  | .remove policyData => run remove s policyData

end Sections

/-- The item that a visit leaves at a path. -/
def Visit.itemAt (p : Path) : Visit → Option Item
  | .stop => none
  | .item v => if v.path = p then some (v.withSettings v.run.settings) else none

/-- The item at a path is the one of the section that the directory was made from. -/
def Sections.itemAt (sh : Shell) (s : Sections) (p : Path) : Option Item :=
  (s.sectionOf p.dir).bind fun entries =>
    (sectionVisits sh (p.dir, .dict entries)).findSome? (Visit.itemAt p)

/-- A policy document of nothing but sections, whose items have `enable` last. -/
structure IsSectionDocument (sh : Shell) (policyData : List DictEntry) : Prop where
  document : IsPolicyDocument policyData
  sections : ∀ entry ∈ policyData, ∃ entries, entry.2 = .dict entries
  last : EnableLast (visitsOf sh policyData)

/-- The call is made with such a document; with `-r` it may be any whose keys are names. -/
def Call.Valid (sh : Shell) : Call → Prop
  | apply policyData => IsSectionDocument sh policyData
  | remove policyData => ∀ entry ∈ policyData, isPlainName entry.1 = true

/-- The tree and the driver's messages are as the calls have it. -/
structure Matches (sh : Shell) (l : LockSystem) (s : Sections) : Prop where
  groups : ∀ dir, dir ∈ l.fs.groups ↔ (s.sectionOf dir).isSome = true
  items : ∀ p, l.fs.items.lookup p = s.itemAt sh p
  table : l.table = s.table

/-! ## One section -/

/-- The sections of a document are documents. -/
theorem IsSectionDocument.singleton {sh : Shell} {policyData : List DictEntry}
    (h : IsSectionDocument sh policyData) {entry : DictEntry} (hentry : entry ∈ policyData) :
    IsSectionDocument sh [entry] := by
  have hsubset : ∀ x ∈ visitsOf sh [entry], x ∈ visitsOf sh policyData := by
    intro x hx
    obtain ⟨entry', hentry', hx⟩ := List.mem_flatMap.mp hx
    rw [List.mem_singleton.mp hentry'] at hx
    exact List.mem_flatMap.mpr ⟨entry, hentry, hx⟩
  refine ⟨⟨?_, List.nodup_singleton _, ?_⟩, ?_, ?_⟩
  · have hplain := isPlainEntries_iff.mp h.document.plain
    exact isPlainEntries_iff.mpr (List.forall_mem_singleton.mpr (hplain entry hentry))
  · intro key entries g hmem
    rw [List.mem_singleton] at hmem
    exact h.document.sections key entries g (hmem ▸ hentry)
  · intro entry' hentry'
    rw [List.mem_singleton] at hentry'
    exact h.sections entry' (hentry' ▸ hentry)
  · exact ⟨fun hstop => h.last.stop (hsubset _ hstop),
      fun v hv => h.last.numbers v (hsubset _ hv),
      fun v w hv hw => h.last.alone v w (hsubset _ hv) (hsubset _ hw)⟩

theorem visitsOf_singleton (sh : Shell) (entry : DictEntry) :
    visitsOf sh [entry] = sectionVisits sh entry := List.flatMap_singleton _ _

/-- The item of a section at its path. -/
theorem findSome?_itemAt {sh : Shell} {entry : DictEntry} (h : IsSectionDocument sh [entry])
    {v : ItemVisit} (hv : .item v ∈ sectionVisits sh entry) :
    (sectionVisits sh entry).findSome? (Visit.itemAt v.path) =
      some (v.withSettings v.run.settings) := by
  refine findSome?_of_agree (fun x hx item hitem => ?_) ⟨_, hv, if_pos rfl⟩
  cases x with
  | stop => cases hitem
  | item w =>
    rw [Visit.itemAt] at hitem
    split at hitem
    · rename_i hpath
      rw [← visitsOf_singleton] at hv hx
      rwa [h.document.eq_of_path hv hx hpath] at hitem
    · cases hitem

theorem findSome?_itemAt_of_noItem {vs : List Visit} {p : Path}
    (h : ∀ v, Visit.item v ∈ vs → v.path ≠ p) : vs.findSome? (Visit.itemAt p) = none := by
  refine List.findSome?_eq_none_iff.mpr fun x hx => ?_
  cases x with
  | stop => rfl
  | item v => exact if_neg (h v hx)

/-- The operation leaves the directories. -/
def CfgOp.KeepsGroups (op : CfgOp) : Prop := ∀ fs : Configfs, (fs.step op).groups = fs.groups

theorem Configfs.groups_store (fs : Configfs) (p : Path)
    (f : (g : CfgGroup) → Cfg g.kind → StoreResult g.kind) :
    (fs.store p f).fs.groups = fs.groups := by
  unfold Configfs.store
  cases fs.items.lookup p <;> rfl

/-- In a directory the script makes no other. -/
theorem operationsIn_keepsGroups (sh : Shell) :
    OperationsIn sh (fun cwd => cwd ≠ .base) CfgOp.KeepsGroups where
  chdir {cwd} key h := by
    cases cwd with
    | base => exact absurd rfl h
    | group dir | item p => exact Cwd.noConfusion
  mkdir {cwd key op} h hop := by
    cases cwd with
    | base => exact absurd rfl h
    | group dir =>
      obtain rfl := Option.some_inj.mp hop
      intro fs
      unfold Configfs.step Configfs.exec
      simp only
      split
      · rfl
      · rfl
      · split
        · rfl
        · split <;> rfl
    | item p => cases hop
  echo {cwd} key value h := by
    cases cwd with
    | base => exact absurd rfl h
    | group dir => exact fun _ h => nomatch h
    | item p =>
      intro op hop fs
      obtain ⟨attr, -, rfl⟩ := Option.map_eq_some_iff.mp (Option.mem_toList.mp hop)
      cases attr <;> exact fs.groups_store p _

/-- The walk over a section leaves the directories. -/
theorem groups_walk (sh : Shell) (key : List Char) (entries : List DictEntry) (s : ScriptState) :
    (parseAndCreateDirStructure sh (.group key) entries s).sys.fs.groups = s.sys.fs.groups := by
  have hcwd : Cwd.group key ≠ .base := Cwd.noConfusion
  have hops := (operationsIn_keepsGroups sh).structureOps hcwd entries s
  rw [sys_parseAndCreateDirStructure, fs_run]
  exact run_inv_of_forall (fun fs : Configfs => fs.groups = s.sys.fs.groups)
    (fun fs op h hop => (hop fs).trans h) _ rfl hops

namespace Matches

variable {sh : Shell} {l : LockSystem} {s : Sections}

/-- Every item is in a directory. -/
theorem root (h : Matches sh l s) {p : Path} (hitem : l.fs.items.lookup p ≠ none) :
    p.dir ∈ l.fs.groups := by
  rw [h.groups, Option.isSome_iff_ne_none]
  intro hnone
  rw [h.items, Sections.itemAt, hnone] at hitem
  exact hitem rfl

/-- **A section is applied.** -/
theorem add (h : Matches sh l s) {entry : DictEntry} (hdocument : IsSectionDocument sh [entry]) :
    let s' := parseEntry sh .base entry ⟨l, false⟩
    s'.exited = false ∧ Matches sh s'.sys (s.add sh entry) := by
  obtain ⟨key, value⟩ := entry
  obtain ⟨entries, rfl⟩ := hdocument.sections _ List.mem_cons_self
  by_cases hkey : key ∈ l.fs.groups
  · -- the directory is there
    have hexec : (⟨l, false⟩ : ScriptState).exec (.mkdirGroup key ⟨true, true⟩) =
        (false, ⟨l, false⟩) := by
      have hfail : l.fs.exec (.mkdirGroup key ⟨true, true⟩) = l.fs.fail .eexist := if_pos hkey
      unfold ScriptState.exec lockStep
      rw [hfail]
      rfl
    have hadd : s.add sh (key, .dict entries) = s := if_pos (Or.inl ((h.groups key).mp hkey))
    rw [parseEntry, parseValue]
    simp only [Cwd.mkdir, hexec, hadd]
    exact ⟨rfl, h⟩
  rcases exec_mkdirGroup (s := ⟨l, false⟩) hkey with
    ⟨htype, hexec⟩ | ⟨type, s₁, htype, hexec, hgroups, -⟩
  · have hadd : s.add sh (key, .dict entries) = s := if_pos (Or.inr htype)
    rw [parseEntry, parseValue]
    simp only [Cwd.mkdir, hexec, hadd]
    exact ⟨rfl, h⟩
  -- the directory is made
  have hnone : s.sectionOf key = none := by
    rw [← Option.not_isSome_iff_eq_none, ← h.groups]
    exact hkey
  have hadd : s.add sh (key, .dict entries) = ⟨Function.update s.sectionOf key (some entries),
      overlay s.table (sectionVisits sh (key, .dict entries))⟩ := by
    refine if_neg (not_or.mpr ⟨?_, ?_⟩)
    · rw [hnone]
      exact Bool.false_ne_true
    · rw [htype]
      exact Option.some_ne_none type
  obtain ⟨houtcome, -⟩ := documentRest_step sh (key, .dict entries) [] ⟨l, false⟩
    ⟨hdocument.document, by simpa using hkey, fun p hp => h.root hp⟩ rfl
  obtain ⟨hexited, htable, hitems⟩ :=
    hdocument.last.outcome hdocument.document (o := ScriptState.outcome ⟨l, false⟩) rfl
  rw [visitsOf_singleton] at hexited htable hitems
  have hkeep : ∀ {p}, (∀ v, Visit.item v ∈ sectionVisits sh (key, .dict entries) → v.path ≠ p) →
      (Outcome.visits (sectionVisits sh (key, .dict entries))
        (ScriptState.outcome ⟨l, false⟩)).items p = l.fs.items.lookup p :=
    fun hp => Outcome.visits_items_of_not_mem hp _
  have hgroups' : (parseEntry sh .base (key, .dict entries) ⟨l, false⟩).sys.fs.groups =
      l.fs.groups.insert key type := by
    rw [parseEntry, parseValue]
    simp only [Cwd.mkdir, hexec, if_true]
    exact (groups_walk sh key entries s₁).trans hgroups
  rw [← houtcome] at hexited htable hitems hkeep
  generalize parseEntry sh .base (key, .dict entries) ⟨l, false⟩ = s' at *
  refine ⟨hexited, ?_⟩
  rw [hadd]
  refine ⟨fun dir => ?_, fun p => ?_, ?_⟩
  · rw [hgroups', AList.mem_insert, h.groups]
    by_cases hdir : dir = key
    · simp [hdir]
    · simp only [Function.update_of_ne hdir, or_iff_right hdir]
  · change s'.outcome.items p = _
    by_cases hvisit : ∃ v, Visit.item v ∈ sectionVisits sh (key, .dict entries) ∧ v.path = p
    · obtain ⟨v, hv, rfl⟩ := hvisit
      have hdir : v.path.dir = key := dir_of_mem_sectionVisits hv
      rw [hitems v hv, Sections.itemAt]
      simp only [hdir, Function.update_self, Option.bind_some]
      exact (findSome?_itemAt hdocument hv).symm
    · have hno : ∀ v, Visit.item v ∈ sectionVisits sh (key, .dict entries) → v.path ≠ p :=
        fun v hv hp => hvisit ⟨v, hv, hp⟩
      rw [hkeep hno, h.items]
      unfold Sections.itemAt
      by_cases hdir : p.dir = key
      · simp only [hdir, Function.update_self, Option.bind_some, hnone, Option.bind_none]
        exact (findSome?_itemAt_of_noItem hno).symm
      · simp only [Function.update_of_ne hdir]
  · rw [← h.table]
    exact htable

/-- A directory is removed. -/
theorem remove (h : Matches sh l s) (listdir : Listing) (entry : DictEntry) :
    Matches sh (run lockStep l (rmtreeOps listdir l.fs entry.1)) (s.remove entry) := by
  have hroot : ∀ p, l.fs.items.lookup p ≠ none → p.dir ∈ l.fs.groups := fun p hp => h.root hp
  obtain ⟨htable, hgroups, hitems⟩ := run_rmtreeOps listdir entry.1 hroot
  refine ⟨fun dir => ?_, fun p => ?_, htable.trans h.table⟩
  · rw [hgroups, h.groups]
    unfold Sections.remove
    by_cases hdir : dir = entry.1
    · simp [hdir]
    · simp [hdir]
  · rw [hitems, h.items]
    unfold Sections.itemAt Sections.remove
    by_cases hdir : p.dir = entry.1
    · simp [hdir]
    · simp [hdir]

/-! ## Calls -/

/-- **A document is applied.** -/
theorem apply {policyData : List DictEntry} (hdocument : IsSectionDocument sh policyData) :
    ∀ {l : LockSystem} {s : Sections}, Matches sh l s →
      Matches sh (run lockStep l (structureOps sh .base policyData ⟨l, false⟩))
        (run (Sections.add sh) s policyData) := by
  intro l s h
  rw [← sys_parseAndCreateDirStructure sh .base policyData ⟨l, false⟩]
  have hsingle : ∀ entry ∈ policyData, IsSectionDocument sh [entry] :=
    fun _ hentry => hdocument.singleton hentry
  clear hdocument
  induction policyData generalizing l s with
  | nil =>
    rw [parseAndCreateDirStructure]
    exact h
  | cons entry rest ih =>
    obtain ⟨hexited, hadd⟩ := h.add (hsingle entry List.mem_cons_self)
    rw [parseAndCreateDirStructure]
    generalize parseEntry sh .base entry ⟨l, false⟩ = s₁ at hexited hadd
    obtain ⟨l₁, exited⟩ := s₁
    obtain rfl : exited = false := hexited
    exact ih hadd fun entry' hentry' => hsingle entry' (List.mem_cons_of_mem _ hentry')

/-- The directories of a document are removed. -/
theorem removeAll (listdir : Listing) : ∀ (policyData : List DictEntry) {l : LockSystem}
    {s : Sections}, Matches sh l s →
      Matches sh (run lockStep l (removeOps listdir policyData l.fs))
        (run Sections.remove s policyData)
  | [], _, _, h => h
  | entry :: rest, l, s, h => by
    rw [removeOps, run_append, ← fs_run]
    exact removeAll listdir rest (h.remove listdir entry)

/-- **Calls of the script**, one after another. -/
theorem run (listdir : Listing) : ∀ {calls : List Call}, (∀ call ∈ calls, call.Valid sh) →
    ∀ {l : LockSystem} {s : Sections}, Matches sh l s →
      Matches sh (Lib.run lockStep l (callOps sh listdir calls l))
        (Lib.run (Sections.call sh) s calls)
  | [], _, _, _, h => h
  | call :: calls, hvalid, l, s, h => by
    rw [callOps, run_append, run_cons]
    refine Matches.run listdir (fun c hc => hvalid c (List.mem_cons_of_mem _ hc)) ?_
    have hcall := hvalid call List.mem_cons_self
    cases call with
    | apply policyData => exact Matches.apply hcall h
    | remove policyData => exact h.removeAll listdir policyData

end Matches

/-! ## The guest -/

theorem Matches.empty (sh : Shell) : Matches sh ⟨.empty, fun _ => none⟩ .empty where
  groups dir := iff_of_false (AList.notMem_empty dir) Bool.false_ne_true
  items _ := rfl
  table := rfl

/-- **The registers follow the calls.** The script is called any number of times in `before`, with
documents of sections that have `enable` last, with `-r` for any, and the guest does anything
meanwhile. Then each item is as in the section its directory was made from last; the handler has
what was said last of each resource, also where the item is gone; and as long as the driver sends no
message, each bit of CR0 and CR4 and each MSR goes on each CPU where the rules of these settings
have it. For `STAR` and `LSTAR` nothing is monitored and there are no rules. All steps are covered:
each WRMSR has 32 bits in RCX, and writes to control registers are reported on CPUs below 128 only.
-/
theorem calls_rule {debug : Bool} {fw : Framework} (halloc : fw.nextOutcome = .success)
    (hnone : ∀ w, fw.watches w = false) {reg : Nat → VmcsReg → U64} {msr : Nat → U32 → U64}
    {sh : Shell} {listdir : Listing} {calls : List Call} (hcalls : ∀ c ∈ calls, c.Valid sh)
    {before after : List MachineAction}
    (hok : Steps (machineStep debug) (Machine.Covered debug) (.init fw reg msr) (before ++ after))
    (hops : before.filterMap MachineAction.op =
      callOps sh listdir calls ⟨.empty, fun _ => none⟩)
    (hquiet : Steps (machineStep debug) Machine.SendsNothing
      (run (machineStep debug) (.init fw reg msr) before) after) :
    let m := run (machineStep debug) (.init fw reg msr) before
    let s := run (Sections.call sh) .empty calls
    (∀ p, m.sys.fs.items.lookup p = s.itemAt sh p) ∧
      (∀ id, (m.sys.handler.policies.lookup id).map Policy.setting = s.table id) ∧
      (∀ w, m.sys.handler.fw.watches w = true ↔ Monitored s.table w) ∧
      (run (machineStep debug) (.init fw reg msr) (before ++ after)).regs =
        run (fun g a => g.after (ruleOf s.table) a) m.regs after := by
  intro m s
  obtain ⟨hbefore, hafter⟩ := steps_append.mp hok
  have hruled := (Machine.RuledBy.init halloc hnone reg msr).run hbefore
  have hmatches := (Matches.empty sh).run listdir hcalls
  rw [← hops, ← driver_run before ⟨_, (Machine.init fw reg msr).regs⟩] at hmatches
  refine ⟨fun p => ?_, fun id => ?_, fun w => ?_, ?_⟩
  · rw [hruled.deployed.fs]
    exact hmatches.items p
  · rw [← hmatches.table]
    exact hruled.deployed.settings id
  · rw [← hmatches.table]
    exact hruled.deployed.watches w
  · rw [run_append, hruled.regs_run hafter hquiet, hmatches.table]

theorem answered_removeOps (listdir : Listing) : ∀ (policyData : List DictEntry) (fs : Configfs),
    ∀ op ∈ removeOps listdir policyData fs, op.Answered
  | [], _ => fun _ h => nomatch h
  | (key, _) :: rest, fs => by
    rw [removeOps, List.forall_mem_append]
    refine ⟨?_, answered_removeOps listdir rest _⟩
    unfold rmtreeOps
    simp only [List.forall_mem_append, List.forall_mem_map, List.forall_mem_singleton]
    exact ⟨fun _ _ => trivial, trivial⟩

/-- The operations of the calls are answered. -/
theorem answered_callOps (sh : Shell) (listdir : Listing) : ∀ (calls : List Call) (s : LockSystem),
    ∀ op ∈ callOps sh listdir calls s, op.Answered
  | [], _ => fun _ h => nomatch h
  | call :: calls, s => by
    rw [callOps, List.forall_mem_append]
    refine ⟨?_, answered_callOps sh listdir calls _⟩
    cases call with
    | apply policyData => exact answered_structureOps sh .base policyData ⟨s, false⟩
    | remove policyData => exact answered_removeOps listdir policyData s.fs

/-- WP is disabled. -/
def wpOff : List DictEntry := [("cr0".toList, .dict [("wp".toList, lastPolicy "0" "1" "0")])]

theorem isSectionDocument_wpOff : IsSectionDocument .plain wpOff := by
  refine ⟨⟨by decide, List.nodup_singleton _, ?_⟩, List.forall_mem_singleton.mpr ⟨_, rfl⟩, ?_⟩
  · rintro key entries g hmem -
    obtain ⟨-, h⟩ := Prod.mk.inj (List.mem_singleton.mp hmem)
    obtain rfl := PolicyData.dict.inj h
    have hitems : IsSectionPolicy [("wp".toList, itemPolicy "0" "1" "0")] :=
      isSectionPolicy_of_itemPolicy (List.nodup_singleton _)
        (List.forall_mem_singleton.mpr ⟨_, _, _, rfl⟩)
    exact hitems.reordered (.dict (.refl _) (.cons (reordered_lastPolicy _ _ _) .nil))
  · have hvisits : visitsOf .plain wpOff = [⟨⟨"cr0".toList, "wp".toList⟩, .cr0,
        ⟨"wp".toList, by decide⟩, [some (.write, 1), some (.stickyValue, 0),
          some (.enable, 0)]⟩].map .item := rfl
    rw [hvisits]
    refine enableLast_items (List.forall_mem_singleton.mpr ?_) (by decide +kernel)
    exact ⟨CfgAttr.values 0 1 0, Or.inl rfl⟩

theorem isSectionDocument_policyJsonLast : IsSectionDocument .plain policyJsonLast :=
  ⟨isPolicyDocument_policyJsonLast, by simp [policyJsonLast], enableLast_policyJsonLast⟩

/-- `policy.json` is applied and taken back, and WP is disabled. There is no item for PG, and it is
still protected. -/
theorem calls_rule_policyJson :
    let before := (callOps .plain .plain
      [.apply policyJsonLast, .remove policyJsonLast, .apply wpOff]
      ⟨.empty, fun _ => none⟩).map userStep
    let start := Machine.init .atBoot (fun _ => Function.update (fun _ => 0) .cr0 0x80010000)
      fun _ _ => 7
    let m := run (machineStep false) start before
    let m' := run (machineStep false) start (before ++ clearCr0)
    m.sys.fs.items.lookup ⟨"cr0".toList, "pg".toList⟩ = none ∧
      (m.sys.handler.policies.lookup ResourceId.cr0Pg.code).map Policy.setting = some ⟨3, 0⟩ ∧
      (m.sys.handler.policies.lookup ResourceId.cr0Wp.code).map Policy.setting = none ∧
      (m'.cr 1 .cr0).getLsbD 31 = true ∧ (m'.cr 1 .cr0).getLsbD 16 = false := by
  intro before start m m'
  have hremove : ∀ entry ∈ policyJsonLast, isPlainName entry.1 = true := by decide
  have hcalls : ∀ c ∈ [Call.apply policyJsonLast, .remove policyJsonLast, .apply wpOff],
      c.Valid .plain :=
    List.forall_mem_cons.mpr ⟨isSectionDocument_policyJsonLast, List.forall_mem_cons.mpr
      ⟨hremove, List.forall_mem_singleton.mpr isSectionDocument_wpOff⟩⟩
  have hscript : Steps (machineStep false) (Machine.Covered false) start before :=
    steps_of_forall (P := fun a => ∀ m : Machine, m.Covered false a) (fun m _ h => h m) _
      (List.forall_mem_map.mpr fun op hop m =>
        (answered_callOps _ _ _ _ op hop).covered false m)
  have hwrites : ∀ m, Steps (machineStep false) (Machine.Covered false) m clearCr0 := fun m =>
    ⟨⟨⟨⟨Or.inl rfl, fun _ => rfl⟩, trivial, trivial⟩, (by decide : 1 < 128)⟩,
      ⟨⟨⟨Or.inl rfl, fun _ => rfl⟩, (by decide : (0xC0000080 : U64).toNat < 2 ^ 32), trivial⟩,
        trivial⟩, trivial⟩
  have hquiet : ∀ m, Steps (machineStep false) Machine.SendsNothing m clearCr0 := fun m =>
    ⟨(fun _ h => nomatch h), (fun _ h => nomatch h), trivial⟩
  have hops : before.filterMap MachineAction.op = _ := filterMap_op_userStep _
  have hstart : (run (machineStep false) start before).regs = start.regs :=
    regs_run_userStep false _ start
  clear_value before
  obtain ⟨hitems, htable, -, hrules⟩ := calls_rule rfl (fun _ => rfl) hcalls
    (steps_append.mpr ⟨hscript, hwrites _⟩) hops (hquiet _)
  have hregs : m'.regs = _ := hrules
  refine ⟨(hitems _).trans (by decide +kernel), (htable _).trans (by decide +kernel),
    (htable _).trans (by decide +kernel), ?_⟩
  rw [Machine.getLsbD_cr hregs, Machine.getLsbD_cr hregs, hstart]
  decide +kernel

end IkgtUsage
