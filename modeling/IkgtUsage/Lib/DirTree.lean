import Mathlib.Data.List.Induction
import Mathlib.Order.Basic

/-!
# Directory trees

A `DirTree` says which paths are directories and which files a directory has. A path is the list of
names that leads to it from the root. The structure carries what makes it a tree: the directory of a
directory or of a file is one, and no name stands for both.

`mkdir` adds a directory under a name that is free. Trees are ordered by what they have, and
`NewFilesBelow` says where one has files that a smaller one has not.
-/

namespace IkgtUsage.Lib

variable {ν : Type*}

/-- A tree of directories with files in them. -/
structure DirTree (ν : Type*) where
  isDir : List ν → Bool
  hasFile : List ν → ν → Bool
  root : isDir [] = true
  parent : ∀ {p name}, isDir (p ++ [name]) = true → isDir p = true
  dir_of_file : ∀ {p name}, hasFile p name = true → isDir p = true
  not_both : ∀ {p name}, hasFile p name = true → isDir (p ++ [name]) = false

namespace DirTree

variable {t t' t'' : DirTree ν} {p q : List ν} {name file : ν}

/-- Just the root. -/
def justRoot [DecidableEq ν] : DirTree ν where
  isDir p := p = []
  hasFile _ _ := false
  root := rfl
  parent h := absurd (of_decide_eq_true h) (List.append_ne_nil_of_right_ne_nil _ (by simp))
  dir_of_file h := by cases h
  not_both h := by cases h

/-- What lies on the way to a directory is a directory. -/
theorem isDir_of_isPrefix (hpq : p <+: q) (hq : t.isDir q = true) : t.isDir p = true := by
  obtain ⟨rest, rfl⟩ := hpq
  induction rest using List.reverseRecOn with
  | nil => rwa [List.append_nil] at hq
  | append_singleton rest name ih =>
    rw [← List.append_assoc] at hq
    exact ih (t.parent hq)

/-- The name stands for something in the directory. -/
def taken (t : DirTree ν) (p : List ν) (name : ν) : Bool :=
  t.isDir (p ++ [name]) || t.hasFile p name

theorem isDir_of_not_taken (h : t.taken p name = false) : t.isDir (p ++ [name]) = false :=
  (Bool.or_eq_false_iff.mp h).1

/-! ## Making a directory -/

/-- A new directory under a free name, with some files. -/
def mkdir [DecidableEq ν] (t : DirTree ν) (p : List ν) (name : ν) (files : List ν)
    (hp : t.isDir p = true) (hfree : t.taken p name = false) : DirTree ν where
  isDir q := q = p ++ [name] || t.isDir q
  hasFile q file := (q = p ++ [name] && files.contains file) || t.hasFile q file
  root := by simp [t.root]
  parent {q last} h := by
    simp only [Bool.or_eq_true, decide_eq_true_eq] at h ⊢
    rcases h with h | h
    · obtain ⟨rfl, -⟩ := List.append_inj' h rfl
      exact Or.inr hp
    · exact Or.inr (t.parent h)
  dir_of_file {q file} h := by
    simp only [Bool.or_eq_true, Bool.and_eq_true, decide_eq_true_eq] at h ⊢
    exact h.imp And.left t.dir_of_file
  not_both {q file} h := by
    simp only [Bool.or_eq_true, Bool.and_eq_true, decide_eq_true_eq] at h
    rw [Bool.or_eq_false_iff, decide_eq_false_iff_not]
    have hnew := isDir_of_not_taken hfree
    rcases h with ⟨rfl, -⟩ | h
    · refine ⟨fun heq => ?_, ?_⟩
      · exact absurd (congrArg List.length heq) (by simp)
      · rw [← Bool.not_eq_true]
        intro hdir
        rw [t.parent hdir] at hnew
        cases hnew
    · refine ⟨fun heq => ?_, t.not_both h⟩
      obtain ⟨rfl, hname⟩ := List.append_inj' heq rfl
      obtain rfl : file = name := by simpa using hname
      rw [(Bool.or_eq_false_iff.mp hfree).2] at h
      cases h

section

variable [DecidableEq ν] (files : List ν) (hp : t.isDir p = true) (hfree : t.taken p name = false)

theorem isDir_mkdir :
    (t.mkdir p name files hp hfree).isDir q = true ↔ q = p ++ [name] ∨ t.isDir q = true := by
  simp [mkdir]

theorem hasFile_mkdir :
    (t.mkdir p name files hp hfree).hasFile q file = true ↔
      (q = p ++ [name] ∧ file ∈ files) ∨ t.hasFile q file = true := by
  simp [mkdir]

/-- A new directory has nothing below it. -/
theorem eq_nil_of_hasFile_mkdir {rest : List ν}
    (hf : (t.mkdir p name files hp hfree).hasFile (p ++ name :: rest) file = true) :
    rest = [] := by
  rcases (hasFile_mkdir files hp hfree).mp hf with ⟨heq, -⟩ | hold
  · simpa using heq
  · have hprefix : p ++ [name] <+: p ++ name :: rest := by simp
    have hnew := isDir_of_not_taken hfree
    rw [isDir_of_isPrefix hprefix (t.dir_of_file hold)] at hnew
    cases hnew

end

/-! ## What a tree has -/

/-- Everything in the one is in the other. -/
instance : Preorder (DirTree ν) where
  le t t' := (∀ p, t.isDir p = true → t'.isDir p = true) ∧
    ∀ p file, t.hasFile p file = true → t'.hasFile p file = true
  le_refl _ := ⟨fun _ h => h, fun _ _ h => h⟩
  le_trans _ _ _ h h' :=
    ⟨fun p hp => h'.1 p (h.1 p hp), fun p file hf => h'.2 p file (h.2 p file hf)⟩

theorem isDir_mono (h : t ≤ t') (hp : t.isDir p = true) : t'.isDir p = true := h.1 p hp

theorem hasFile_mono (h : t ≤ t') (hf : t.hasFile p file = true) : t'.hasFile p file = true :=
  h.2 p file hf

theorem le_mkdir [DecidableEq ν] (files : List ν) (hp : t.isDir p = true)
    (hfree : t.taken p name = false) : t ≤ t.mkdir p name files hp hfree :=
  ⟨fun _ h => (isDir_mkdir files hp hfree).mpr (Or.inr h),
    fun _ _ h => (hasFile_mkdir files hp hfree).mpr (Or.inr h)⟩

/-- The files of `t'` that `t` has not are in or below directories of these names in `p`. -/
def NewFilesBelow (t t' : DirTree ν) (p : List ν) (names : List ν) : Prop :=
  ∀ q file, t'.hasFile q file = true →
    t.hasFile q file = true ∨ ∃ name ∈ names, p ++ [name] <+: q

namespace NewFilesBelow

variable {names names' : List ν}

theorem refl (t : DirTree ν) (p names : List ν) : NewFilesBelow t t p names :=
  fun _ _ h => Or.inl h

theorem append (h : NewFilesBelow t t' p names) (h' : NewFilesBelow t' t'' p names') :
    NewFilesBelow t t'' p (names ++ names') := by
  intro q file hfile
  rcases h' q file hfile with hmid | ⟨name, hname, hbelow⟩
  · rcases h q file hmid with hold | ⟨name, hname, hbelow⟩
    · exact Or.inl hold
    · exact Or.inr ⟨name, List.mem_append_left _ hname, hbelow⟩
  · exact Or.inr ⟨name, List.mem_append_right _ hname, hbelow⟩

/-- What is new below a new directory, and in it, is below the directory it was made in. -/
theorem of_mkdir [DecidableEq ν] {files : List ν} {hp : t.isDir p = true}
    {hfree : t.taken p name = false}
    (h : NewFilesBelow (t.mkdir p name files hp hfree) t' (p ++ [name]) names) :
    NewFilesBelow t t' p [name] := by
  intro q file hfile
  have hmem : name ∈ [name] := List.mem_singleton.mpr rfl
  rcases h q file hfile with hold | ⟨name', -, hbelow⟩
  · rcases (hasFile_mkdir files hp hfree).mp hold with ⟨rfl, -⟩ | hold
    · exact Or.inr ⟨name, hmem, List.prefix_rfl⟩
    · exact Or.inl hold
  · exact Or.inr ⟨name, hmem, (List.prefix_append _ [name']).trans hbelow⟩

/-- No file is new in the directory itself. -/
theorem hasFile_here (h : NewFilesBelow t t' p names) (hf : t'.hasFile p file = true) :
    t.hasFile p file = true := by
  rcases h p file hf with hold | ⟨name, -, hbelow⟩
  · exact hold
  · exact absurd hbelow.length_le (by simp)

/-- No file is new below another name. -/
theorem hasFile_below (h : NewFilesBelow t t' p names) (hname : name ∉ names)
    (hf : t'.hasFile (p ++ name :: q) file = true) : t.hasFile (p ++ name :: q) file = true := by
  rcases h _ file hf with hold | ⟨name', hname', hbelow⟩
  · exact hold
  · rw [List.prefix_append_right_inj, List.cons_prefix_cons] at hbelow
    exact absurd (hbelow.1 ▸ hname') hname

end NewFilesBelow

end DirTree

end IkgtUsage.Lib
