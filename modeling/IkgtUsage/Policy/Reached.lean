import IkgtUsage.Policy.WorkingDir

/-!
# `policy/parse_policy.py`: the settings that are reached

The script comes back to the base directory, unless it could not go back to it (`CameBack`). It
writes only into the base directory and into directories that it has made and entered (`Records`).
And where it could always go back, it reaches every text of the document whose file is there in the
end, but for those that had their file before, below the base directory, and for those whose
directory it could not enter (`Applied`). So `settings_reached_iff` says which settings it reaches.

For a directory that exists this means that none of its settings is written.
-/

namespace IkgtUsage

open Lib

/-! ## Leaves -/

/-- The text `value` stands under `name` in the dictionary that the keys `dir` lead to. -/
inductive IsLeaf : List DictEntry → List Name → Name → List Char → Prop
  | here {entries : List DictEntry} {name : Name} {value : List Char}
      (h : (name, .text value) ∈ entries) : IsLeaf entries [] name value
  | under {entries sub : List DictEntry} {key name : Name} {dir : List Name} {value : List Char}
      (h : (key, .dict sub) ∈ entries) (hleaf : IsLeaf sub dir name value) :
      IsLeaf entries (key :: dir) name value

/-- A leaf of a nonempty dictionary is one of the first entry or of the others. -/
theorem IsLeaf.cons_iff {entry : DictEntry} {rest : List DictEntry} {dir : List Name} {name : Name}
    {value : List Char} :
    IsLeaf (entry :: rest) dir name value ↔
      IsLeaf [entry] dir name value ∨ IsLeaf rest dir name value := by
  constructor
  · rintro (h | ⟨h, hleaf⟩)
    · exact (List.mem_cons.mp h).imp (fun heq => .here (List.mem_singleton.mpr heq)) .here
    · exact (List.mem_cons.mp h).imp (fun heq => .under (List.mem_singleton.mpr heq) hleaf)
        (.under · hleaf)
  · rintro ((h | ⟨h, hleaf⟩) | (h | ⟨h, hleaf⟩))
    · exact .here (List.mem_cons.mpr (Or.inl (List.mem_singleton.mp h)))
    · exact .under (List.mem_cons.mpr (Or.inl (List.mem_singleton.mp h))) hleaf
    · exact .here (List.mem_cons_of_mem _ h)
    · exact .under (List.mem_cons_of_mem _ h) hleaf

/-- The first key on the way to a leaf is one of the dictionary. -/
theorem IsLeaf.key_mem {entries : List DictEntry} {key name : Name} {dir : List Name}
    {value : List Char} (h : IsLeaf entries (key :: dir) name value) :
    key ∈ entries.map Prod.fst := by
  cases h with
  | under h _ => exact List.mem_map_of_mem h

/-! ## The way back -/

/-- The working directory is the same or one below, and it is the same unless the script could not
go back to it. It did not try to go back further. -/
structure CameBack (s s' : Place) : Prop where
  below : s.cwd <+: s'.cwd
  unreturned : ∃ new, s'.unreturned = new ++ s.unreturned ∧ (∀ dir ∈ new, s.cwd <+: dir) ∧
    (s'.cwd = s.cwd ↔ s.cwd ∉ new)

namespace CameBack

variable {s s' s'' : Place}

/-- Nothing has happened to it. -/
theorem of_eq (hcwd : s'.cwd = s.cwd) (hunreturned : s'.unreturned = s.unreturned) :
    CameBack s s' where
  below := hcwd ▸ List.prefix_rfl
  unreturned := ⟨[], hunreturned, fun _ h => (List.not_mem_nil h).elim,
    iff_of_true hcwd List.not_mem_nil⟩

theorem trans (h : CameBack s s') (h' : CameBack s' s'') : CameBack s s'' := by
  obtain ⟨new, hnew, hdirs, hcwd⟩ := h.unreturned
  obtain ⟨new', hnew', hdirs', hcwd'⟩ := h'.unreturned
  refine ⟨h.below.trans h'.below, new' ++ new, ?_, ?_, ?_⟩
  · rw [hnew', hnew, List.append_assoc]
  · exact List.forall_mem_append.mpr ⟨fun dir hdir => h.below.trans (hdirs' dir hdir), hdirs⟩
  · rw [List.mem_append, not_or, ← hcwd]
    constructor
    · intro hsame
      -- it has not been left in between
      have hmid : s'.cwd = s.cwd := by
        refine (h.below.eq_of_length_le ?_).symm
        rw [← hsame]
        exact h'.below.length_le
      exact ⟨hmid ▸ hcwd'.mp (hsame.trans hmid.symm), hmid⟩
    · rintro ⟨hno, hmid⟩
      exact (hcwd'.mpr (hmid ▸ hno)).trans hmid

/-- After a new directory the working directory is below, and so is what the script could not go
back to from there. -/
theorem of_enter {key : Name} {files : List Name} {hfree : s.tree.taken s.cwd key = false}
    (h : CameBack (s.enter key files hfree) s') :
    s.cwd <+: s'.cwd ∧ s'.cwd ≠ s.cwd ∧ ∃ new, s'.unreturned = new ++ s.unreturned ∧
      ∀ dir ∈ new, s.cwd <+: dir ∧ dir ≠ s.cwd := by
  have hbelow : ∀ {dir : List Name}, s.cwd ++ [key] <+: dir → s.cwd <+: dir ∧ dir ≠ s.cwd := by
    intro dir hdir
    refine ⟨(List.prefix_append _ _).trans hdir, ?_⟩
    rintro rfl
    exact absurd hdir.length_le (by simp)
  obtain ⟨new, hnew, hdirs, -⟩ := h.unreturned
  exact ⟨(hbelow h.below).1, (hbelow h.below).2, new, hnew, fun dir hdir => hbelow (hdirs dir hdir)⟩

end CameBack

theorem Walks.cameBack {sys : System} {entries : List DictEntry} {s s' : Place}
    (h : Walks sys entries s s') : CameBack s s' := by
  induction h with
  | nil s => exact .of_eq rfl rfl
  | pass _ _ ih => exact ih
  | @write key value _ s _ _ ih =>
    have hwrite : CameBack s (s.write key (sys.echo value)) := .of_eq rfl rfl
    exact hwrite.trans ih
  | @notEntered key _ _ s _ files hfree _ ih =>
    have hmade : CameBack s ((s.addDir key files hfree).notEntered key files) := .of_eq rfl rfl
    exact hmade.trans ih
  | @returned _ _ _ s after _ _ _ _ hback _ ihsub ihrest =>
    obtain ⟨-, -, new, hnew, hdirs⟩ := ihsub.of_enter
    have hreturned : CameBack s (after.goTo s.cwd hback) :=
      ⟨List.prefix_rfl, new, hnew, fun dir hdir => (hdirs dir hdir).1,
        iff_of_true rfl fun hmem => (hdirs _ hmem).2 rfl⟩
    exact hreturned.trans ihrest
  | @notReturned _ _ _ s after _ _ _ _ _ ihsub ihrest =>
    obtain ⟨hbelow, hcwd, new, hnew, hdirs⟩ := ihsub.of_enter
    have hleft : CameBack s (after.notReturned s.cwd) :=
      ⟨hbelow, s.cwd :: new, congrArg (List.cons _) hnew,
        List.forall_mem_cons.mpr ⟨List.prefix_rfl, fun dir hdir => (hdirs dir hdir).1⟩,
        iff_of_false hcwd (not_not.mpr List.mem_cons_self)⟩
    exact hleft.trans ihrest

/-! ## What is written -/

/-- The script has written only into the base directory and into directories that were not in
`tree`, and into none that it could not enter. -/
structure Records (tree : DirTree Name) (s : Place) : Prop where
  le : tree ≤ s.tree
  cwd : s.cwd = [] ∨ tree.isDir s.cwd = false
  writes : ∀ w ∈ s.writes, s.tree.isDir w.dir = true ∧ (w.dir = [] ∨ tree.isDir w.dir = false)
  unentered : ∀ e ∈ s.unentered, s.tree.isDir e.1 = true ∧
    (∀ file ∈ e.2, s.tree.hasFile e.1 file = true) ∧ ¬ e.1 <+: s.cwd ∧ ∀ w ∈ s.writes, w.dir ≠ e.1

namespace Records

variable {tree : DirTree Name} {s s' : Place}

/-- Nothing has been written. -/
theorem start (tree : DirTree Name) : Records tree (Process.start tree).toPlace where
  le := le_refl tree
  cwd := Or.inl rfl
  writes _ h := (List.not_mem_nil h).elim
  unentered _ h := (List.not_mem_nil h).elim

/-- A text is written. -/
theorem write (h : Records tree s) (file : Name) (text : List Char) :
    Records tree (s.write file text) where
  le := h.le
  cwd := h.cwd
  writes := List.forall_mem_cons.mpr ⟨⟨s.cwd_isDir, h.cwd⟩, h.writes⟩
  unentered e he := by
    obtain ⟨hdir, hfiles, hcwd, hwrites⟩ := h.unentered e he
    refine ⟨hdir, hfiles, hcwd, List.forall_mem_cons.mpr ⟨?_, hwrites⟩⟩
    intro heq
    exact hcwd (heq ▸ List.prefix_rfl)

/-- The working directory is left for one of those above it that the script was in. -/
theorem goTo {path : List Name} (h : Records tree s) (hdir : s.tree.isDir path = true)
    (habove : path <+: s.cwd) (hpath : path = [] ∨ tree.isDir path = false) :
    Records tree (s.goTo path hdir) where
  le := h.le
  cwd := hpath
  writes := h.writes
  unentered e he := by
    obtain ⟨hdir, hfiles, hcwd, hwrites⟩ := h.unentered e he
    exact ⟨hdir, hfiles, fun hwithin => hcwd (hwithin.trans habove), hwrites⟩

/-- The script cannot go back. -/
theorem notReturned (h : Records tree s) (dir : List Name) : Records tree (s.notReturned dir) :=
  { h with }

variable {key : Name} (files : List Name) (hfree : s.tree.taken s.cwd key = false)

/-- A directory is made. -/
theorem addDir (h : Records tree s) : Records tree (s.addDir key files hfree) where
  le := h.le.trans (DirTree.le_mkdir files s.cwd_isDir hfree)
  cwd := h.cwd
  writes w hw :=
    ⟨(Place.isDir_addDir hfree).mpr (Or.inr (h.writes w hw).1), (h.writes w hw).2⟩
  unentered e he := by
    obtain ⟨hdir, hfiles, hcwd, hwrites⟩ := h.unentered e he
    have hle := DirTree.le_mkdir files s.cwd_isDir hfree
    exact ⟨DirTree.isDir_mono hle hdir,
      fun file hfile => DirTree.hasFile_mono hle (hfiles file hfile), hcwd, hwrites⟩

/-- It is entered. -/
theorem enter (h : Records tree s) : Records tree (s.enter key files hfree) where
  le := (h.addDir files hfree).le
  cwd := by
    refine Or.inr ?_
    rw [← Bool.not_eq_true]
    intro hdir
    have hold : s.tree.isDir (s.cwd ++ [key]) = true := DirTree.isDir_mono h.le hdir
    rw [DirTree.isDir_of_not_taken hfree] at hold
    cases hold
  writes := (h.addDir files hfree).writes
  unentered e he := by
    obtain ⟨hdir, hfiles, -, hwrites⟩ := (h.addDir files hfree).unentered e he
    refine ⟨hdir, hfiles, fun hwithin => ?_, hwrites⟩
    -- the directory was there before the new one
    obtain ⟨hold, -, hcwd, -⟩ := h.unentered e he
    rcases List.prefix_concat_iff.mp hwithin with heq | habove
    · have hnew := DirTree.isDir_of_not_taken hfree
      rw [← heq, hold] at hnew
      cases hnew
    · exact hcwd habove

/-- It is not entered. -/
theorem notEntered (h : Records tree s) :
    Records tree ((s.addDir key files hfree).notEntered key files) where
  le := (h.addDir files hfree).le
  cwd := h.cwd
  writes := (h.addDir files hfree).writes
  unentered := by
    refine List.forall_mem_cons.mpr ⟨⟨?_, fun file hfile => ?_, ?_, fun w hw => ?_⟩,
      (h.addDir files hfree).unentered⟩
    · exact (Place.isDir_addDir hfree).mpr (Or.inl rfl)
    · exact (DirTree.hasFile_mkdir files s.cwd_isDir hfree).mpr (Or.inl ⟨rfl, hfile⟩)
    · intro hwithin
      have hlonger : s.cwd ++ [key] <+: s.cwd := hwithin
      exact absurd hlonger.length_le (by simp)
    · intro heq
      have hsame : w.dir = s.cwd ++ [key] := heq
      have hnew := DirTree.isDir_of_not_taken hfree
      rw [← hsame, (h.writes w hw).1] at hnew
      cases hnew

end Records

theorem Walks.records {sys : System} {tree : DirTree Name} {entries : List DictEntry}
    {s s' : Place} (hwalks : Walks sys entries s s') (h : Records tree s) : Records tree s' := by
  induction hwalks with
  | nil s => exact h
  | pass _ _ ih => exact ih h
  | write _ ih => exact ih (h.write _ _)
  | notEntered hfree _ ih => exact ih (h.notEntered _ hfree)
  | returned hfree hsub hback _ ihsub ihrest =>
    refine ihrest ((ihsub (h.enter _ hfree)).goTo hback ?_ h.cwd)
    exact hsub.cameBack.of_enter.1
  | notReturned hfree _ _ ihsub ihrest =>
    exact ihrest ((ihsub (h.enter _ hfree)).notReturned _)

/-! ## What is reached -/

/-- The walk comes back, and new files are in directories of its keys. It reaches every leaf whose
file is there in the end, but for those that had their file, in a directory below, when it started,
and those whose directory it could not enter. -/
structure Applied (sys : System) (entries : List DictEntry) (s s' : Place) : Prop where
  cwd : s'.cwd = s.cwd
  files : s.tree.NewFilesBelow s'.tree s.cwd (entries.map Prod.fst)
  reached : ∀ dir name value, IsLeaf entries dir name value →
    s'.tree.hasFile (s.cwd ++ dir) name = true →
      ⟨s.cwd ++ dir, name, sys.echo value⟩ ∈ s'.writes ∨
        dir ≠ [] ∧ s.tree.hasFile (s.cwd ++ dir) name = true ∨
        ∃ files, (s.cwd ++ dir, files) ∈ s'.unentered ∧ name ∈ files

namespace Applied

variable {sys : System} {s s' s'' : Place}

/-- No entries. -/
theorem nil (s : Place) : Applied sys [] s s where
  cwd := rfl
  files := .refl _ _ _
  reached _ _ _ hleaf := by cases hleaf with
    | here h => exact (List.not_mem_nil h).elim
    | under h _ => exact (List.not_mem_nil h).elim

/-- One entry, and then the others. -/
theorem cons {entry : DictEntry} {rest : List DictEntry} (hkey : entry.1 ∉ rest.map Prod.fst)
    (h : Applied sys [entry] s s') (hgrows : s'.Grows s'') (h' : Applied sys rest s' s'') :
    Applied sys (entry :: rest) s s'' := by
  have hfiles' := h.cwd ▸ h'.files
  refine ⟨h'.cwd.trans h.cwd, h.files.append hfiles', fun dir name value hleaf hfile => ?_⟩
  rcases IsLeaf.cons_iff.mp hleaf with hfirst | hrest
  · -- the others add no file where the leaf of the first entry is
    have hfile' : s'.tree.hasFile (s.cwd ++ dir) name = true := by
      cases dir with
      | nil =>
        rw [List.append_nil] at hfile ⊢
        exact hfiles'.hasFile_here hfile
      | cons key dir =>
        have hsame : key = entry.1 := by simpa using hfirst.key_mem
        exact hfiles'.hasFile_below (hsame ▸ hkey) hfile
    rcases h.reached dir name value hfirst hfile' with hwrite | hold | ⟨files, hdir, hname⟩
    · exact Or.inl (hgrows.writes.subset hwrite)
    · exact Or.inr (Or.inl hold)
    · exact Or.inr (Or.inr ⟨files, hgrows.unentered.subset hdir, hname⟩)
  · rw [← h.cwd] at hfile ⊢
    rcases h'.reached dir name value hrest hfile with hwrite | ⟨hdir, hold⟩ | hunentered
    · exact Or.inl hwrite
    · refine Or.inr (Or.inl ⟨hdir, ?_⟩)
      cases dir with
      | nil => exact (hdir rfl).elim
      | cons key dir =>
        -- nor has the first entry added one where a leaf of the others is
        have hother : key ∉ [entry].map Prod.fst := by
          intro hmem
          have hsame : key = entry.1 := by simpa using hmem
          exact hkey (hsame ▸ hrest.key_mem)
        rw [h.cwd] at hold ⊢
        exact h.files.hasFile_below hother hold
    · exact Or.inr (Or.inr hunentered)

/-- An entry for which nothing is done. -/
theorem pass {entry : DictEntry}
    (habsent : ∀ value, entry.2 = .text value → s.tree.hasFile s.cwd entry.1 = false) :
    Applied sys [entry] s s where
  cwd := rfl
  files := .refl _ _ _
  reached dir name value hleaf hfile := by
    cases hleaf with
    | here h =>
      obtain rfl := List.mem_singleton.mp h
      rw [List.append_nil, habsent value rfl] at hfile
      cases hfile
    | under h hleaf => exact Or.inr (Or.inl ⟨List.cons_ne_nil _ _, hfile⟩)

/-- A text that is written. -/
theorem write (key value : List Char) :
    Applied sys [(key, .text value)] s (s.write key (sys.echo value)) where
  cwd := rfl
  files := .refl _ _ _
  reached dir name value hleaf hfile := by
    cases hleaf with
    | here h =>
      cases List.mem_singleton.mp h
      rw [List.append_nil]
      exact Or.inl List.mem_cons_self
    | under h _ => cases List.mem_singleton.mp h

variable {key : Name} {sub : List DictEntry} {files : List Name}
  (hfree : s.tree.taken s.cwd key = false)

/-- A dictionary whose directory is made and not entered. -/
theorem notEntered :
    Applied sys [(key, .dict sub)] s ((s.addDir key files hfree).notEntered key files) where
  cwd := rfl
  files := by
    have hnone := DirTree.NewFilesBelow.refl (s.tree.mkdir s.cwd key files s.cwd_isDir hfree)
      (s.cwd ++ [key]) []
    exact hnone.of_mkdir
  reached dir name value hleaf hfile := by
    cases hleaf with
    | here h => cases List.mem_singleton.mp h
    | under h _ =>
      cases List.mem_singleton.mp h
      obtain rfl := DirTree.eq_nil_of_hasFile_mkdir files s.cwd_isDir hfree hfile
      refine Or.inr (Or.inr ⟨files, List.mem_cons_self, ?_⟩)
      rcases (DirTree.hasFile_mkdir files s.cwd_isDir hfree).mp hfile with ⟨-, hname⟩ | hold
      · exact hname
      · have hnew := DirTree.isDir_of_not_taken hfree
        rw [s.tree.dir_of_file hold] at hnew
        cases hnew

/-- A dictionary whose directory is made, entered and left. -/
theorem returned {after : Place} (hback : after.tree.isDir s.cwd = true)
    (hsub : Applied sys sub (s.enter key files hfree) after) :
    Applied sys [(key, .dict sub)] s (after.goTo s.cwd hback) where
  cwd := rfl
  files := by
    have hbelow : (s.tree.mkdir s.cwd key files s.cwd_isDir hfree).NewFilesBelow after.tree
      (s.cwd ++ [key]) (sub.map Prod.fst) := hsub.files
    exact hbelow.of_mkdir
  reached dir name value hleaf hfile := by
    cases hleaf with
    | here h => cases List.mem_singleton.mp h
    | under h hleaf =>
      rename_i dir
      cases List.mem_singleton.mp h
      have hpath : (s.enter key files hfree).cwd ++ dir = s.cwd ++ key :: dir := by
        change s.cwd ++ [key] ++ dir = _
        rw [List.append_assoc, List.singleton_append]
      have hreached := hsub.reached dir name value hleaf (hpath ▸ hfile)
      rw [hpath] at hreached
      refine hreached.imp id (Or.imp (fun hold => ?_) id)
      exact absurd (DirTree.eq_nil_of_hasFile_mkdir files s.cwd_isDir hfree hold.2) hold.1

end Applied

/-- **What a walk reaches**, if the script could always go back. -/
theorem Walks.applied {sys : System} {entries : List DictEntry} {s s' : Place}
    (h : Walks sys entries s s') (hdoc : IsDocument entries)
    (hback : s'.unreturned = s.unreturned) : Applied sys entries s s' := by
  induction h with
  | nil s => exact .nil s
  | pass habsent hrest ih =>
    exact .cons hdoc.key_notMem (.pass habsent) hrest.grows (ih hdoc.tail hback)
  | write hrest ih =>
    exact .cons hdoc.key_notMem (.write _ _) hrest.grows (ih hdoc.tail hback)
  | notEntered hfree hrest ih =>
    exact .cons hdoc.key_notMem (.notEntered hfree) hrest.grows (ih hdoc.tail hback)
  | @returned _ _ _ s after s' _ _ hsub hdir hrest ihsub ihrest =>
    -- nothing is added below, since nothing is added in all
    have hlater : after.unreturned <:+ s'.unreturned := hrest.grows.unreturned
    have hsame : after.unreturned = s.unreturned :=
      (hsub.grows.unreturned.eq_of_length_le (hback ▸ hlater.length_le)).symm
    exact .cons hdoc.key_notMem (.returned _ hdir (ihsub hdoc.sub hsame)) hrest.grows
      (ihrest hdoc.tail (hback.trans hsame.symm))
  | @notReturned _ _ _ s after s' _ _ hsub hrest _ _ =>
    have hbelow : s.unreturned <:+ after.unreturned := hsub.grows.unreturned
    have hlater : s.cwd :: after.unreturned <:+ s'.unreturned := hrest.grows.unreturned
    have hlength := hlater.length_le
    rw [hback, List.length_cons] at hlength
    exact absurd hbelow.length_le (by omega)

/-- **Which settings are reached.** Where no shell command fails, the script comes back to the base
directory if and only if the system did not refuse to let it go back there. A text counts whose file
is there in the end. All of these have been written only if no text had its file, in a directory
below the base directory, before, and none has it in a directory that the system refused to enter;
and this is enough if the system did not refuse to go back anywhere. -/
theorem settings_reached_iff (sys : System) {policyData : List DictEntry}
    (hdoc : IsDocument policyData) (tree : DirTree Name)
    (hok : (Process.parseAndCreateDirStructure sys policyData (.start tree)).failed = false) :
    let s := Process.parseAndCreateDirStructure sys policyData (.start tree)
    let written := ∀ dir name value, IsLeaf policyData dir name value →
      s.tree.hasFile dir name = true → ⟨dir, name, sys.echo value⟩ ∈ s.writes
    let free := (∀ dir name value, IsLeaf policyData dir name value → dir ≠ [] →
        tree.hasFile dir name = false) ∧
      ∀ dir name value files, IsLeaf policyData dir name value → (dir, files) ∈ s.unentered →
        name ∉ files
    (s.cwd = [] ↔ [] ∉ s.unreturned) ∧ (written → free) ∧
      (s.unreturned = [] → (written ↔ free)) := by
  intro s written free
  have hwalks : Walks sys policyData (Process.start tree).toPlace s.toPlace :=
    Process.walks_of_ok hdoc (.start tree) rfl hok
  have hfree : written → free := by
    intro hwritten
    have hrecords := hwalks.records (.start tree)
    refine ⟨fun dir name value hleaf hdir => ?_,
      fun dir name value files hleaf hunentered hname => ?_⟩
    · rw [← Bool.not_eq_true]
      intro hold
      -- the file is still there, but the script writes only where there was no directory
      have hwrite := hwritten dir name value hleaf (DirTree.hasFile_mono hwalks.grows.tree hold)
      rcases (hrecords.writes _ hwrite).2 with hbase | hnew
      · exact hdir hbase
      · have hisDir : tree.isDir dir = true := tree.dir_of_file hold
        have hnew' : tree.isDir dir = false := hnew
        rw [hisDir] at hnew'
        cases hnew'
    · -- the file is there, and the script writes only where it could enter
      obtain ⟨-, hfiles, -, hno⟩ := hrecords.unentered _ hunentered
      exact hno _ (hwritten dir name value hleaf (hfiles name hname)) rfl
  refine ⟨?_, hfree, fun hback => ⟨hfree, fun hfree dir name value hleaf hfile => ?_⟩⟩
  · obtain ⟨new, hnew, -, hcwd⟩ := hwalks.cameBack.unreturned
    have hall : s.unreturned = new := hnew.trans (List.append_nil new)
    rw [hall]
    exact hcwd
  · have happlied := hwalks.applied hdoc hback
    rcases happlied.reached dir name value hleaf hfile with
      hwrite | ⟨hdir, hold⟩ | ⟨files, hunentered, hname⟩
    · exact hwrite
    · have hold' : tree.hasFile dir name = true := hold
      rw [hfree.1 dir name value hleaf hdir] at hold'
      cases hold'
    · exact absurd hname (hfree.2 dir name value files hleaf hunentered)

/-- The attributes of an item. -/
def itemFiles : List Name := [CfgAttr.enable.name, CfgAttr.write.name, CfgAttr.stickyValue.name]

/-- A system on which everything succeeds but for one `os.chdir`. The first directory made is a
group and the others are items. -/
def groupThenItems (refused : Option Nat) : System where
  getcwd _ := true
  makeDir n := some (if n = 1 then ["description".toList] else itemFiles)
  changeDir n := some n ≠ refused
  command _ := .success
  echo value := value ++ ['\n']
  shell _ _ := []

/-- A document about CR0.PG and CR0.WP. -/
def cr0Policy : List DictEntry :=
  [("cr0".toList, .dict [("pg".toList, itemPolicy "1" "3" "0"),
    ("wp".toList, itemPolicy "1" "1" "0")])]

theorem IsDocument.of_dicts {entries : List DictEntry} (hkeys : (entries.map Prod.fst).Nodup)
    (hnames : ∀ key ∈ entries.map Prod.fst, isPlainName key = true)
    (hdicts : ∀ entry ∈ entries, ∃ sub, entry.2 = .dict sub ∧ IsDocument sub) :
    IsDocument entries := by
  refine ⟨hkeys, hnames, fun key value hmem => ?_, fun key sub hmem => ?_⟩
  · obtain ⟨sub, hvalue, -⟩ := hdicts _ hmem
    cases hvalue
  · obtain ⟨sub', hvalue, hsub⟩ := hdicts _ hmem
    cases hvalue
    exact hsub

theorem isDocument_itemPolicy {enable write stickyValue : String}
    (hplain : ∀ value ∈ [enable, write, stickyValue], isPlainText value.toList = true) :
    IsDocument [(CfgAttr.enable.name, .text enable.toList),
      (CfgAttr.write.name, .text write.toList),
      (CfgAttr.stickyValue.name, .text stickyValue.toList)] := by
  simp only [List.forall_mem_cons] at hplain
  obtain ⟨henable, hwrite, hsticky, -⟩ := hplain
  refine ⟨show itemFiles.Nodup by decide,
    show ∀ key ∈ itemFiles, isPlainName key = true by decide, fun key value hmem => ?_,
    fun key sub hmem => ?_⟩
  · simp only [List.mem_cons, Prod.mk.injEq, PolicyData.text.injEq, List.not_mem_nil,
      or_false] at hmem
    rcases hmem with ⟨rfl, rfl⟩ | ⟨rfl, rfl⟩ | ⟨rfl, rfl⟩
    · exact ⟨by decide, henable⟩
    · exact ⟨by decide, hwrite⟩
    · exact ⟨by decide, hsticky⟩
  · simp at hmem

theorem isDocument_cr0Policy : IsDocument cr0Policy := by
  refine .of_dicts (by decide) (by decide) (List.forall_mem_singleton.mpr ⟨_, rfl, ?_⟩)
  refine .of_dicts (by decide) (by decide) (List.forall_mem_cons.mpr ⟨⟨_, rfl, ?_⟩,
    List.forall_mem_singleton.mpr ⟨_, rfl, ?_⟩⟩)
  · exact isDocument_itemPolicy (by decide)
  · exact isDocument_itemPolicy (by decide)

/-- The document is applied where nothing exists, and the directory of PG cannot be entered. -/
theorem settings_reached_iff_cr0 :
    let sys := groupThenItems (some 5)
    let s := Process.parseAndCreateDirStructure sys cr0Policy (.start .justRoot)
    let written := ∀ dir name value, IsLeaf cr0Policy dir name value →
      s.tree.hasFile dir name = true → ⟨dir, name, sys.echo value⟩ ∈ s.writes
    let free := (∀ dir name value, IsLeaf cr0Policy dir name value → dir ≠ [] →
        (DirTree.justRoot : DirTree Name).hasFile dir name = false) ∧
      ∀ dir name value files, IsLeaf cr0Policy dir name value → (dir, files) ∈ s.unentered →
        name ∉ files
    (s.unentered = [(["cr0".toList, "pg".toList], itemFiles)] ∧ s.writes.length = 3) ∧
      (s.cwd = [] ↔ [] ∉ s.unreturned) ∧ (written → free) ∧
      (s.unreturned = [] → (written ↔ free)) :=
  ⟨by decide +kernel, settings_reached_iff (groupThenItems (some 5)) isDocument_cr0Policy .justRoot
    (by decide +kernel)⟩

/-- **A document that is applied again is not applied.** The items are there from the first time,
and no file is written. -/
theorem applied_again_unwritten :
    let sys := groupThenItems none
    let once := Process.parseAndCreateDirStructure sys cr0Policy (.start .justRoot)
    let again := Process.parseAndCreateDirStructure sys cr0Policy (.start once.tree)
    let dir := ["cr0".toList, "wp".toList]
    IsDocument cr0Policy ∧ again.failed = false ∧
      IsLeaf cr0Policy dir CfgAttr.write.name "1".toList ∧
      again.tree.hasFile dir CfgAttr.write.name = true ∧ again.writes = [] := by
  refine ⟨isDocument_cr0Policy, by decide +kernel, ?_, by decide +kernel, by decide +kernel⟩
  refine .under (List.mem_singleton.mpr rfl)
    (.under (List.mem_cons_of_mem _ (List.mem_singleton.mpr rfl)) (.here ?_))
  exact List.mem_cons_of_mem _ List.mem_cons_self

/-- **A text after a directory that cannot be left is missed.** The script cannot go back from PG,
so it looks for the description of CR0 among the attributes of PG. It does come back to the base
directory. -/
theorem not_returned_unwritten :
    let policyData : List DictEntry := [("cr0".toList, .dict [("pg".toList, itemPolicy "1" "3" "0"),
      ("description".toList, .text "paging".toList)])]
    let s := Process.parseAndCreateDirStructure (groupThenItems (some 9)) policyData
      (.start .justRoot)
    s.failed = false ∧ s.cwd = [] ∧ s.unreturned = [["cr0".toList]] ∧
      IsLeaf policyData ["cr0".toList] "description".toList "paging".toList ∧
      s.tree.hasFile ["cr0".toList] "description".toList = true ∧
      ∀ w ∈ s.writes, w.dir ≠ ["cr0".toList] := by
  refine ⟨by decide +kernel, by decide +kernel, by decide +kernel, ?_, by decide +kernel,
    by decide +kernel⟩
  exact .under (List.mem_singleton.mpr rfl)
    (.here (List.mem_cons_of_mem _ (List.mem_singleton.mpr rfl)))

end IkgtUsage
