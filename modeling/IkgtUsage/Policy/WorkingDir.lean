import IkgtUsage.Lib.DirTree
import IkgtUsage.Policy.Script

/-!
# `policy/parse_policy.py`: the working directory

`Policy.Script` runs the script over the driver's own tree, from no items. Here it runs over any
directory tree, with documents nested to any depth. The working directory is part of the state: the
script enters each directory it makes and goes back by the path it had saved. What the system
answers is arbitrary (`System`), but for the file system itself: a directory can be made under a
free name only, and entered if it exists.

An `OSError` is caught where the loop stands. So the script passes over a directory that cannot be
made or entered, and where it cannot go back it goes on with the next key from where it is.
`dictOutcome` says what is done for one dictionary, and `walks_of_ok` what a run without a failing
command consists of.
-/

namespace IkgtUsage

open Lib

/-! ## The system -/

/-- A file name. -/
abbrev Name := List Char

/-- How `subprocess.check_call` ends: with success, with an exit status, or without a process. -/
inductive CommandResult
  | success | exitStatus | osError
  deriving DecidableEq, Repr

/-- A text was written to a file. -/
structure Write where
  dir : List Name
  file : Name
  text : List Char
  deriving DecidableEq, Repr

/-- What the system answers to the requests, by their number. -/
structure System where
  /-- `os.getcwd` succeeds. -/
  getcwd : Nat → Bool
  /-- A directory is made under a free name, with these attribute files, or refused. -/
  makeDir : Nat → Option (List Name)
  /-- `os.chdir` succeeds for a directory that exists. -/
  changeDir : Nat → Bool
  /-- A command. -/
  command : Nat → CommandResult
  /-- What `echo` prints for plain words. -/
  echo : List Char → List Char
  /-- What a command line with other characters writes, from a directory. -/
  shell : List Name → List Char → List Write

/-- Where the script is: the tree under the base directory, the working directory, which is part of
it, and what has come about, newest first. -/
structure Place where
  tree : DirTree Name
  cwd : List Name
  cwd_isDir : tree.isDir cwd = true
  writes : List Write
  /-- The directories that were made and could not be entered, with their files. -/
  unentered : List (List Name × List Name)
  /-- The directories that the script could not go back to. -/
  unreturned : List (List Name)

namespace Place

/-- There is a new directory in the working directory. -/
def addDir (key : Name) (files : List Name) (s : Place) (hfree : s.tree.taken s.cwd key = false) :
    Place :=
  { s with
    tree := s.tree.mkdir s.cwd key files s.cwd_isDir hfree
    cwd_isDir := (DirTree.isDir_mkdir files s.cwd_isDir hfree).mpr (Or.inr s.cwd_isDir) }

theorem isDir_addDir {key : Name} {files : List Name} {s : Place}
    (hfree : s.tree.taken s.cwd key = false) {path : List Name} :
    (s.addDir key files hfree).tree.isDir path = true ↔
      path = s.cwd ++ [key] ∨ s.tree.isDir path = true :=
  DirTree.isDir_mkdir files s.cwd_isDir hfree

/-- The working directory is the one at `path`. -/
def goTo (path : List Name) (s : Place) (h : s.tree.isDir path = true) : Place :=
  { s with cwd := path, cwd_isDir := h }

/-- The new directory is the working directory. -/
def enter (key : Name) (files : List Name) (s : Place) (hfree : s.tree.taken s.cwd key = false) :
    Place :=
  (s.addDir key files hfree).goTo (s.cwd ++ [key]) ((isDir_addDir hfree).mpr (Or.inl rfl))

/-- A text is written to a file of the working directory. -/
def write (file : Name) (text : List Char) (s : Place) : Place :=
  { s with writes := ⟨s.cwd, file, text⟩ :: s.writes }

/-- The new directory cannot be entered. -/
def notEntered (key : Name) (files : List Name) (s : Place) : Place :=
  { s with unentered := (s.cwd ++ [key], files) :: s.unentered }

/-- The script cannot go back. -/
def notReturned (dir : List Name) (s : Place) : Place :=
  { s with unreturned := dir :: s.unreturned }

end Place

/-- The script at work. -/
structure Process extends Place where
  requests : Nat
  /-- A shell command has failed. -/
  failed : Bool
  /-- The script has called `sys.exit`. -/
  exited : Bool

namespace Process

/-- The script in the base directory. -/
def start (tree : DirTree Name) : Process := ⟨⟨tree, [], tree.root, [], [], []⟩, 0, false, false⟩

/-- A request is made. -/
def tick (s : Process) : Process := { s with requests := s.requests + 1 }

/-- `os.getcwd()`, and whether it succeeds. -/
def getcwd (sys : System) (s : Process) : Bool × Process := (sys.getcwd s.requests, s.tick)

/-- `os.mkdir(key)`, and the files of the directory, if it is made. -/
def mkdir (sys : System) (key : Name) (s : Process) : Option (List Name) × Process :=
  if h : s.tree.taken s.cwd key = false then
    match sys.makeDir s.requests with
    | none => (none, s.tick)
    | some files => (some files, { s.tick with toPlace := s.addDir key files h })
  else (none, s.tick)

/-- `os.chdir(path)`, and whether it succeeds. -/
def chdir (sys : System) (path : List Name) (s : Process) : Bool × Process :=
  if h : s.tree.isDir path = true then
    if sys.changeDir s.requests then (true, { s.tick with toPlace := s.goTo path h })
    else (false, s.tick)
  else (false, s.tick)

/-- `os.path.exists(key)`. -/
def pathExists (key : Name) (s : Process) : Bool := s.tree.taken s.cwd key

/-- `execute_shell_command`: only a command that can succeed may do so. A `CalledProcessError` ends
the script. -/
def executeShellCommand (sys : System) (canSucceed : Bool) (writes : List Write) (s : Process) :
    Process :=
  match sys.command s.requests, canSucceed with
  | .success, true => { s.tick with writes := writes ++ s.writes }
  | .osError, _ => { s.tick with failed := true }
  | _, _ => { s.tick with failed := true, exited := true }

/-- `echo value > key`. With plain words it writes to the file; a directory cannot be written. -/
def echoTo (sys : System) (key value : List Char) (s : Process) : Process :=
  if isPlainText value && isPlainName key then
    s.executeShellCommand sys (s.tree.hasFile s.cwd key) [⟨s.cwd, key, sys.echo value⟩]
  else
    s.executeShellCommand sys true
      (sys.shell s.cwd ("echo ".toList ++ value ++ " > ".toList ++ key))

/-- `touch value`. -/
def touch (sys : System) (s : Process) : Process := s.executeShellCommand sys true []

/-! ## The script -/

mutual

/-- The body of the loop, by the value. -/
def parseValue (sys : System) (key : Name) : PolicyData → Process → Process
  | .dict entries, s =>
    let prevDir := s.cwd
    let (known, s) := s.getcwd sys
    if !known then s
    else
      match s.mkdir sys key with
      | (none, s) => s
      | (some files, s) =>
        match s.chdir sys (s.cwd ++ [key]) with
        | (false, s) => { s with toPlace := s.notEntered key files }
        | (true, s) =>
          let s := parseAndCreateDirStructure sys entries s
          if s.exited then s
          else
            match s.chdir sys prevDir with
            | (false, s) => { s with toPlace := s.notReturned prevDir }
            | (true, s) => s
  | .text value, s =>
    if key = logVal then s.touch sys
    else if s.pathExists key then s.echoTo sys key value
    else s

/-- The body of the loop. -/
def parseEntry (sys : System) : DictEntry → Process → Process
  | (key, value), s => parseValue sys key value s

/-- `parse_and_create_dir_structure`. -/
def parseAndCreateDirStructure (sys : System) : List DictEntry → Process → Process
  | [], s => s
  | entry :: rest, s =>
    let s := parseEntry sys entry s
    if s.exited then s else parseAndCreateDirStructure sys rest s

end

end Process

/-! ## Documents -/

/-- A document: the keys of a dictionary are different plain names, and its texts are plain words
that do not stand under `log.txt`. -/
inductive IsDocument : List DictEntry → Prop
  | intro {entries : List DictEntry} (hkeys : (entries.map Prod.fst).Nodup)
      (hnames : ∀ key ∈ entries.map Prod.fst, isPlainName key = true)
      (htexts : ∀ key value, (key, .text value) ∈ entries →
        key ≠ logVal ∧ isPlainText value = true)
      (hdicts : ∀ key sub, (key, .dict sub) ∈ entries → IsDocument sub) : IsDocument entries

namespace IsDocument

variable {entry : DictEntry} {rest : List DictEntry}

theorem key_notMem (h : IsDocument (entry :: rest)) : entry.1 ∉ rest.map Prod.fst := by
  cases h with
  | intro hkeys _ _ _ => exact (List.nodup_cons.mp hkeys).1

theorem tail (h : IsDocument (entry :: rest)) : IsDocument rest := by
  cases h with
  | intro hkeys hnames htexts hdicts =>
    exact ⟨(List.nodup_cons.mp hkeys).2, fun k hk => hnames k (List.mem_cons_of_mem _ hk),
      fun k v h => htexts k v (List.mem_cons_of_mem _ h),
      fun k sub h => hdicts k sub (List.mem_cons_of_mem _ h)⟩

theorem sub {key : Name} {sub : List DictEntry} (h : IsDocument ((key, .dict sub) :: rest)) :
    IsDocument sub := by
  cases h with
  | intro _ _ _ hdicts => exact hdicts key sub List.mem_cons_self

end IsDocument

/-! ## What a run consists of -/

/-- The walk over entries from one place to another, where no command fails and whatever else the
system refuses. -/
inductive Walks (sys : System) : List DictEntry → Place → Place → Prop
  | nil (s : Place) : Walks sys [] s s
  /-- Nothing is done for an entry. If it is a text, there is no file for it. -/
  | pass {entry : DictEntry} {rest : List DictEntry} {s s' : Place}
      (habsent : ∀ value, entry.2 = .text value → s.tree.hasFile s.cwd entry.1 = false)
      (hrest : Walks sys rest s s') : Walks sys (entry :: rest) s s'
  /-- A text is written. -/
  | write {key value : List Char} {rest : List DictEntry} {s s' : Place}
      (hrest : Walks sys rest (s.write key (sys.echo value)) s') :
      Walks sys ((key, .text value) :: rest) s s'
  /-- A directory is made and not entered. -/
  | notEntered {key : Name} {sub rest : List DictEntry} {s s' : Place} {files : List Name}
      (hfree : s.tree.taken s.cwd key = false)
      (hrest : Walks sys rest ((s.addDir key files hfree).notEntered key files) s') :
      Walks sys ((key, .dict sub) :: rest) s s'
  /-- A directory is made, entered and left. -/
  | returned {key : Name} {sub rest : List DictEntry} {s after s' : Place} {files : List Name}
      (hfree : s.tree.taken s.cwd key = false)
      (hsub : Walks sys sub (s.enter key files hfree) after)
      (hback : after.tree.isDir s.cwd = true)
      (hrest : Walks sys rest (after.goTo s.cwd hback) s') :
      Walks sys ((key, .dict sub) :: rest) s s'
  /-- A directory is made and entered, and the script cannot go back. -/
  | notReturned {key : Name} {sub rest : List DictEntry} {s after s' : Place} {files : List Name}
      (hfree : s.tree.taken s.cwd key = false)
      (hsub : Walks sys sub (s.enter key files hfree) after)
      (hrest : Walks sys rest (after.notReturned s.cwd) s') :
      Walks sys ((key, .dict sub) :: rest) s s'

/-- What is there stays. -/
structure Place.Grows (s s' : Place) : Prop where
  tree : s.tree ≤ s'.tree
  writes : s.writes <:+ s'.writes
  unentered : s.unentered <:+ s'.unentered
  unreturned : s.unreturned <:+ s'.unreturned

namespace Place.Grows

variable {s s' s'' : Place}

theorem refl (s : Place) : s.Grows s :=
  ⟨le_refl _, List.suffix_rfl, List.suffix_rfl, List.suffix_rfl⟩

theorem trans (h : s.Grows s') (h' : s'.Grows s'') : s.Grows s'' :=
  ⟨h.tree.trans h'.tree, h.writes.trans h'.writes, h.unentered.trans h'.unentered,
    h.unreturned.trans h'.unreturned⟩

theorem addDir {key : Name} (files : List Name) (hfree : s.tree.taken s.cwd key = false) :
    s.Grows (s.addDir key files hfree) :=
  { refl s with tree := DirTree.le_mkdir files s.cwd_isDir hfree }

theorem enter {key : Name} (files : List Name) (hfree : s.tree.taken s.cwd key = false) :
    s.Grows (s.enter key files hfree) :=
  { refl s with tree := DirTree.le_mkdir files s.cwd_isDir hfree }

theorem goTo {path : List Name} (h : s.tree.isDir path = true) : s.Grows (s.goTo path h) :=
  { refl s with }

theorem write (file : Name) (text : List Char) : s.Grows (s.write file text) :=
  { refl s with writes := List.suffix_cons _ _ }

theorem notEntered (key : Name) (files : List Name) : s.Grows (s.notEntered key files) :=
  { refl s with unentered := List.suffix_cons _ _ }

theorem notReturned (dir : List Name) : s.Grows (s.notReturned dir) :=
  { refl s with unreturned := List.suffix_cons _ _ }

end Place.Grows

theorem Walks.grows {sys : System} {entries : List DictEntry} {s s' : Place}
    (h : Walks sys entries s s') : s.Grows s' := by
  induction h with
  | nil s => exact .refl s
  | pass _ _ ih => exact ih
  | write _ ih => exact (Place.Grows.write _ _).trans ih
  | notEntered hfree _ ih => exact ((Place.Grows.addDir _ hfree).trans (.notEntered _ _)).trans ih
  | returned hfree _ hback _ ihsub ihrest =>
    exact (((Place.Grows.enter _ hfree).trans ihsub).trans (.goTo hback)).trans ihrest
  | notReturned hfree _ _ ihsub ihrest =>
    exact (((Place.Grows.enter _ hfree).trans ihsub).trans (.notReturned _)).trans ihrest

namespace Process

/-! ## What is done for a dictionary -/

/-- Whether a command has failed, and whether the script has ended. -/
def flags (s : Process) : Bool × Bool := (s.failed, s.exited)

/-- A directory is not made, or it is made. -/
theorem mkdir_cases (sys : System) (key : Name) (s : Process) :
    (∃ s', s.mkdir sys key = (none, s') ∧ s'.toPlace = s.toPlace ∧ s'.flags = s.flags) ∨
      ∃ files hfree s', s.mkdir sys key = (some files, s') ∧
        s'.toPlace = s.addDir key files hfree ∧ s'.flags = s.flags := by
  unfold mkdir
  split
  · rename_i hfree
    split
    · exact Or.inl ⟨_, rfl, rfl, rfl⟩
    · exact Or.inr ⟨_, hfree, _, rfl, rfl, rfl⟩
  · exact Or.inl ⟨_, rfl, rfl, rfl⟩

/-- A directory is entered or not. -/
theorem chdir_cases (sys : System) (path : List Name) (s : Process) :
    (∃ s', s.chdir sys path = (false, s') ∧ s'.toPlace = s.toPlace ∧ s'.flags = s.flags) ∨
      ∃ hdir s', s.chdir sys path = (true, s') ∧ s'.toPlace = s.goTo path hdir ∧
        s'.flags = s.flags := by
  unfold chdir
  split
  · rename_i hdir
    split
    · exact Or.inr ⟨hdir, _, rfl, rfl, rfl⟩
    · exact Or.inl ⟨_, rfl, rfl, rfl⟩
  · exact Or.inl ⟨_, rfl, rfl, rfl⟩

/-- What the body of the loop does for a dictionary. -/
inductive DictOutcome (sys : System) (key : Name) (entries : List DictEntry)
    (s s' : Process) : Prop
  | passed (hplace : s'.toPlace = s.toPlace) (hflags : s'.flags = s.flags)
  | notEntered {files : List Name} (hfree : s.tree.taken s.cwd key = false)
      (hplace : s'.toPlace = (s.addDir key files hfree).notEntered key files)
      (hflags : s'.flags = s.flags)
  /-- The script has ended below. -/
  | ended {files : List Name} {inside : Process} (hfree : s.tree.taken s.cwd key = false)
      (hinside : inside.toPlace = s.enter key files hfree) (hflags : inside.flags = s.flags)
      (hexited : (parseAndCreateDirStructure sys entries inside).exited = true)
      (hsame : s' = parseAndCreateDirStructure sys entries inside)
  /-- It goes back, or cannot. -/
  | left {files : List Name} {inside after : Process} (hfree : s.tree.taken s.cwd key = false)
      (hinside : inside.toPlace = s.enter key files hfree) (hflags : inside.flags = s.flags)
      (hafter : after = parseAndCreateDirStructure sys entries inside)
      (hplace : s'.toPlace = after.notReturned s.cwd ∨
        ∃ hback, s'.toPlace = after.goTo s.cwd hback)
      (hsame : s'.flags = after.flags)

theorem dictOutcome (sys : System) (key : Name) (entries : List DictEntry) (s : Process) :
    DictOutcome sys key entries s (parseValue sys key (.dict entries) s) := by
  unfold parseValue
  have hgetcwd : s.getcwd sys = (sys.getcwd s.requests, s.tick) := rfl
  rw [hgetcwd]
  simp only
  split
  · exact .passed rfl rfl
  -- the directory is made
  rcases mkdir_cases sys key s.tick with
    ⟨s₁, hmade, hplace₁, hflags₁⟩ | ⟨files, hfree, s₁, hmade, hplace₁, hflags₁⟩
  · rw [hmade]
    exact .passed hplace₁ hflags₁
  have hcwd : s₁.cwd = s.cwd := by
    rw [hplace₁]
    rfl
  rw [hmade]
  simp only [hcwd]
  -- it is entered
  rcases chdir_cases sys (s.cwd ++ [key]) s₁ with
    ⟨s₂, hentered, hplace₂, hflags₂⟩ | ⟨hdir, s₂, hentered, hplace₂, hflags₂⟩
  · have hplace : s₂.notEntered key files = (s.addDir key files hfree).notEntered key files := by
      simp only [hplace₂, hplace₁]
      rfl
    rw [hentered]
    exact .notEntered hfree hplace (hflags₂.trans hflags₁)
  rw [hentered]
  simp only
  have hinside : s₂.toPlace = s.enter key files hfree := by
    rw [hplace₂]
    simp only [hplace₁]
    rfl
  have hflags : s₂.flags = s.flags := hflags₂.trans hflags₁
  split
  · rename_i hexited
    exact .ended hfree hinside hflags hexited rfl
  -- and left
  generalize hafter : parseAndCreateDirStructure sys entries s₂ = after
  rcases chdir_cases sys s.cwd after with
    ⟨s₃, hleft, hplace₃, hflags₃⟩ | ⟨hback, s₃, hleft, hplace₃, hflags₃⟩
  · rw [hleft]
    refine .left hfree hinside hflags hafter.symm (Or.inl ?_) hflags₃
    simp only [hplace₃]
  · rw [hleft]
    exact .left hfree hinside hflags hafter.symm (Or.inr ⟨hback, hplace₃⟩) hflags₃

/-! ## A failing command -/

/-- A failing command is not forgotten, and the script exits only there. -/
structure Onward (s s' : Process) : Prop where
  failed : s.failed = true → s'.failed = true
  exited : s'.exited = true → s.exited = true ∨ s'.failed = true

namespace Onward

variable {s s' s'' : Process}

/-- Both are as before. -/
theorem of_flags (h : s'.flags = s.flags) : Onward s s' :=
  ⟨fun hf => (Prod.ext_iff.mp h).1.trans hf, fun he => Or.inl ((Prod.ext_iff.mp h).2.symm.trans he)⟩

theorem trans (h : Onward s s') (h' : Onward s' s'') : Onward s s'' where
  failed hf := h'.failed (h.failed hf)
  exited he := by
    rcases h'.exited he with he' | hf
    · exact (h.exited he').imp id h'.failed
    · exact Or.inr hf

/-- Where no command has failed at the end, none has before. -/
theorem not_failed (h : Onward s s') (hok : s'.failed = false) : s.failed = false := by
  rw [← Bool.not_eq_true] at hok ⊢
  exact mt h.failed hok

theorem not_exited (h : Onward s s') (hok : s'.failed = false) (hrun : s.exited = false) :
    s'.exited = false := by
  rw [← Bool.not_eq_true]
  intro he
  rcases h.exited he with he' | hf
  · rw [hrun] at he'
    cases he'
  · rw [hok] at hf
    cases hf

theorem executeShellCommand (sys : System) (canSucceed : Bool) (writes : List Write)
    (s : Process) : Onward s (s.executeShellCommand sys canSucceed writes) := by
  unfold Process.executeShellCommand
  split
  · exact of_flags rfl
  · exact ⟨fun _ => rfl, Or.inl⟩
  · exact ⟨fun _ => rfl, fun _ => Or.inr rfl⟩

theorem echoTo (sys : System) (key value : List Char) (s : Process) :
    Onward s (s.echoTo sys key value) := by
  unfold Process.echoTo
  split
  · exact executeShellCommand sys _ _ s
  · exact executeShellCommand sys _ _ s

mutual

theorem parseValue (sys : System) (key : Name) : ∀ (value : PolicyData) (s : Process),
    Onward s (parseValue sys key value s)
  | .text value, s => by
    unfold Process.parseValue
    split
    · exact executeShellCommand sys _ _ s
    · split
      · exact echoTo sys key value s
      · exact of_flags rfl
  | .dict entries, s => by
    cases dictOutcome sys key entries s with
    | passed _ hflags => exact of_flags hflags
    | notEntered _ _ hflags => exact of_flags hflags
    | ended _ _ hflags _ hsame =>
      rw [hsame]
      exact (of_flags hflags).trans (parseAndCreateDirStructure sys entries _)
    | left _ _ hflags hafter _ hsame =>
      subst hafter
      exact ((of_flags hflags).trans (parseAndCreateDirStructure sys entries _)).trans
        (of_flags hsame)

theorem parseEntry (sys : System) : ∀ (entry : DictEntry) (s : Process),
    Onward s (parseEntry sys entry s)
  | (key, value), s => by
    unfold Process.parseEntry
    exact parseValue sys key value s

/-- A run of the loop. -/
theorem parseAndCreateDirStructure (sys : System) : ∀ (entries : List DictEntry) (s : Process),
    Onward s (parseAndCreateDirStructure sys entries s)
  | [], s => by
    unfold Process.parseAndCreateDirStructure
    exact of_flags rfl
  | entry :: rest, s => by
    unfold Process.parseAndCreateDirStructure
    have hfirst := parseEntry sys entry s
    simp only
    split
    · exact hfirst
    · exact hfirst.trans (parseAndCreateDirStructure sys rest _)

end

end Onward

/-! ## A run without one -/

variable {sys : System} {s : Process}

/-- A command that does not fail has its effect. -/
theorem executeShellCommand_of_ok {canSucceed : Bool} {writes : List Write}
    (hok : (s.executeShellCommand sys canSucceed writes).failed = false) :
    canSucceed = true ∧
      s.executeShellCommand sys canSucceed writes =
        { s.tick with writes := writes ++ s.writes } := by
  unfold executeShellCommand at hok ⊢
  split at hok
  · exact ⟨rfl, rfl⟩
  · cases hok
  · cases hok

/-- The loop over the entries is a walk, if no command fails. -/
def WalksIfOk (sys : System) (entries : List DictEntry) : Prop :=
  ∀ s : Process, s.exited = false → (parseAndCreateDirStructure sys entries s).failed = false →
    Walks sys entries s.toPlace (parseAndCreateDirStructure sys entries s).toPlace

/-- An entry with a text, before a walk. -/
theorem walks_text {key value : List Char} (hname : isPlainName key = true) (hlog : key ≠ logVal)
    (htext : isPlainText value = true)
    (hok : (parseValue sys key (.text value) s).failed = false) {rest : List DictEntry}
    {s' : Place} (hrest : Walks sys rest (parseValue sys key (.text value) s).toPlace s') :
    Walks sys ((key, .text value) :: rest) s.toPlace s' := by
  unfold parseValue at hok hrest
  rw [if_neg hlog] at hok hrest
  by_cases hexists : s.pathExists key = true
  · rw [if_pos hexists] at hok hrest
    have hplain : (isPlainText value && isPlainName key) = true := by rw [htext, hname]; rfl
    unfold echoTo at hok hrest
    rw [if_pos hplain] at hok hrest
    rw [(executeShellCommand_of_ok hok).2] at hrest
    exact .write hrest
  · rw [if_neg hexists] at hrest
    rw [Bool.not_eq_true] at hexists
    exact .pass (fun _ _ => (Bool.or_eq_false_iff.mp hexists).2) hrest

/-- An entry with a dictionary, before a walk. -/
theorem walks_dict {key : Name} {sub : List DictEntry} (hsub : WalksIfOk sys sub)
    (hrun : s.exited = false) (hok : (parseValue sys key (.dict sub) s).failed = false)
    {rest : List DictEntry} {s' : Place}
    (hrest : Walks sys rest (parseValue sys key (.dict sub) s).toPlace s') :
    Walks sys ((key, .dict sub) :: rest) s.toPlace s' := by
  have houtcome := dictOutcome sys key sub s
  generalize parseValue sys key (.dict sub) s = r at hok hrest houtcome
  cases houtcome with
  | passed hplace _ =>
    rw [hplace] at hrest
    exact .pass (fun _ h => PolicyData.noConfusion h) hrest
  | notEntered hfree hplace _ =>
    rw [hplace] at hrest
    exact .notEntered hfree hrest
  | ended _ _ hflags hexited hsame =>
    -- it ends only where a command fails
    rw [hsame] at hok
    have hinside := (Prod.ext_iff.mp hflags).2.trans hrun
    have hnot := (Onward.parseAndCreateDirStructure sys sub _).not_exited hok hinside
    rw [hexited] at hnot
    cases hnot
  | left hfree hinside hflags hafter hplace hsame =>
    have hok' := (Prod.ext_iff.mp hsame).1.symm.trans hok
    have hwalks := hsub _ ((Prod.ext_iff.mp hflags).2.trans hrun) (hafter ▸ hok')
    rw [hinside, ← hafter] at hwalks
    rcases hplace with hplace | ⟨hback, hplace⟩
    · rw [hplace] at hrest
      exact .notReturned hfree hwalks hrest
    · rw [hplace] at hrest
      exact .returned hfree hwalks hback hrest

/-- Entries whose dictionaries are walked. -/
theorem walks_entries : ∀ {entries : List DictEntry},
    (∀ key ∈ entries.map Prod.fst, isPlainName key = true) →
    (∀ key value, (key, .text value) ∈ entries → key ≠ logVal ∧ isPlainText value = true) →
    (∀ key sub, (key, .dict sub) ∈ entries → WalksIfOk sys sub) → WalksIfOk sys entries
  | [], _, _, _, s, _, _ => by
    unfold parseAndCreateDirStructure
    exact .nil s.toPlace
  | (key, value) :: rest, hnames, htexts, hdicts, s, hrun, hok => by
    have honward := Onward.parseEntry sys (key, value) s
    have hlater := Onward.parseAndCreateDirStructure sys rest (parseEntry sys (key, value) s)
    have hfirst : (parseEntry sys (key, value) s).failed = false := by
      unfold parseAndCreateDirStructure at hok
      simp only at hok
      split at hok
      · exact hok
      · exact hlater.not_failed hok
    have hexited := honward.not_exited hfirst hrun
    unfold parseAndCreateDirStructure at hok ⊢
    simp only [hexited, Bool.false_eq_true, if_false] at hok ⊢
    have hrest := walks_entries (fun k hk => hnames k (List.mem_cons_of_mem _ hk))
      (fun k v h => htexts k v (List.mem_cons_of_mem _ h))
      (fun k sub h => hdicts k sub (List.mem_cons_of_mem _ h)) _ hexited hok
    cases value with
    | text value =>
      obtain ⟨hlog, htext⟩ := htexts key value List.mem_cons_self
      exact walks_text (hnames key List.mem_cons_self) hlog htext hfirst hrest
    | dict sub => exact walks_dict (hdicts key sub List.mem_cons_self) hrun hfirst hrest

/-- **A run without a failing command** is a walk, for a document nested to any depth. -/
theorem walks_of_ok {entries : List DictEntry} (hdoc : IsDocument entries) :
    WalksIfOk sys entries := by
  induction hdoc with
  | intro _ hnames htexts _ ih => exact walks_entries hnames htexts ih

end Process

end IkgtUsage
