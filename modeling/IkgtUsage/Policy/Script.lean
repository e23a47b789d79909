import IkgtUsage.Driver.LockInForce

/-!
# `policy/parse_policy.py`: applying a policy file

The script walks over the dictionaries of a policy file. A dictionary becomes a directory under
`ikgt_agent`; a value is echoed to the attribute of that name, if there is one. A directory that
cannot be made is passed over, a command that fails ends the script.

The walk goes over the keys of a dictionary in the order of `iteritems`, which Python 2 leaves open:
`PolicyData` holds the keys in the order they are visited, and `Reordered` relates two visits of one
file. What `echo` prints for a text of the file, and whether `touch` succeeds for it, is a parameter
(`Shell`). The commands are put together without quotes, so this is for texts that the shell takes
for nothing but words (`isPlainText`) and for keys that are names of directory entries
(`isPlainName`). Left out: the arguments, the option that removes the directories, and what is
printed.
-/

namespace IkgtUsage

/-! ## Policy files -/

/-- What `json.load` gives: a dictionary, or a value as the text that `str` makes of it. -/
inductive PolicyData
  | text (value : List Char)
  | dict (entries : List (List Char × PolicyData))

/-- A key of a dictionary with its value. -/
abbrev DictEntry := List Char × PolicyData

mutual

/-- The second one is the first one, with the keys of each dictionary in any order. -/
inductive Reordered : PolicyData → PolicyData → Prop
  | text (value : List Char) : Reordered (.text value) (.text value)
  | dict {entries mid entries' : List DictEntry} (hperm : entries.Perm mid)
      (hvalues : EntriesReordered mid entries') : Reordered (.dict entries) (.dict entries')

/-- The same keys in the same order; the values may be reordered. -/
inductive EntriesReordered : List DictEntry → List DictEntry → Prop
  | nil : EntriesReordered [] []
  | cons {key : List Char} {value value' : PolicyData} {entries entries' : List DictEntry}
      (hvalue : Reordered value value') (hvalues : EntriesReordered entries entries') :
      EntriesReordered ((key, value) :: entries) ((key, value') :: entries')

end

/-! ## Plain words -/

/-- A character that the shell takes for itself. -/
def isPlainChar (c : Char) : Bool := c.isAlphanum || "_-.,:/+@%=".toList.contains c

/-- Words, with blanks between them. -/
def isPlainText (value : List Char) : Bool := value.all fun c => isPlainChar c || c = ' '

/-- A word that names an entry of a directory. With a slash it would be a path, and `.` and `..` are
directories. -/
def isPlainName (key : List Char) : Bool :=
  key.all (fun c => isPlainChar c && c ≠ '/') && key ≠ [] && key ≠ ['.'] && key ≠ ['.', '.']

mutual

/-- All keys are plain names and all texts plain words. -/
def PolicyData.isPlain : PolicyData → Bool
  | .text value => isPlainText value
  | .dict entries => isPlainEntries entries

/-- The same for the entries of a dictionary. -/
def isPlainEntries : List DictEntry → Bool
  | [] => true
  | (key, value) :: rest => isPlainName key && value.isPlain && isPlainEntries rest

end

theorem isPlainEntries_iff {entries : List DictEntry} :
    isPlainEntries entries = true ↔
      ∀ entry ∈ entries, isPlainName entry.1 = true ∧ entry.2.isPlain = true := by
  induction entries with
  | nil => simp [isPlainEntries]
  | cons entry rest ih =>
    rw [isPlainEntries, Bool.and_eq_true, Bool.and_eq_true, ih, List.forall_mem_cons]

/-! ## The system calls and commands -/

/-- The attributes of an item. -/
inductive CfgAttr
  | enable | write | stickyValue
  deriving DecidableEq, Repr

namespace CfgAttr

/-- The name of the file. -/
def name : CfgAttr → List Char
  | enable => "enable".toList
  | write => "write".toList
  | stickyValue => "sticky_value".toList

/-- The attribute of a name. -/
def ofName (key : List Char) : Option CfgAttr :=
  if key = enable.name then some enable
  else if key = write.name then some write
  else if key = stickyValue.name then some stickyValue
  else none

/-- Writing to the file. The message of a store to `enable` is allocated and delivered. -/
def store (p : Path) (page : List Char) : CfgAttr → CfgOp
  | enable => .storeEnable p page ⟨true, true⟩
  | write => .storeWrite p page
  | stickyValue => .storeStickyValue p page

@[simp] theorem ofName_name (attr : CfgAttr) : ofName attr.name = some attr := by
  cases attr <;> decide

end CfgAttr

/-- The shell: what `echo` prints for a text of plain words, and whether `touch` succeeds for it. -/
structure Shell where
  echo : List Char → List Char
  touch : List Char → Bool

/-- A shell that prints the text and a newline, and that can touch every file. -/
def Shell.plain : Shell := ⟨fun value => value ++ ['\n'], fun _ => true⟩

/-- The working directory: `ikgt_agent`, a group or an item. -/
inductive Cwd
  | base
  | group (dir : List Char)
  | item (p : Path)

/-- `os.mkdir(key)`; there are no directories in an item. -/
def Cwd.mkdir (key : List Char) : Cwd → Option CfgOp
  | base => some (.mkdirGroup key ⟨true, true⟩)
  | group dir => some (.mkdir ⟨dir, key⟩ ⟨true, true⟩)
  | item _ => none

/-- `os.chdir(key)`. -/
def Cwd.chdir (key : List Char) : Cwd → Cwd
  | base => group key
  | group dir => item ⟨dir, key⟩
  | item p => item p

/-- The tree and the handler's map, and whether the script has called `sys.exit`. -/
structure ScriptState where
  sys : LockSystem
  exited : Bool

namespace ScriptState

/-- No item has been created and no message sent. -/
def start : ScriptState := ⟨⟨.empty, fun _ => none⟩, false⟩

/-- `sys.exit()`. -/
def exit (s : ScriptState) : ScriptState := { s with exited := true }

/-- An operation on the tree, and whether it succeeds. -/
def exec (s : ScriptState) (op : CfgOp) : Bool × ScriptState :=
  ((s.sys.fs.exec op).ret.isOk, { s with sys := lockStep s.sys op })

/-- `os.path.exists(key)`: an attribute or a directory. -/
def pathExists (s : ScriptState) (key : List Char) : Cwd → Bool
  | .base => key = "description".toList ∨ key ∈ s.sys.fs.groups
  | .group dir =>
    key = (if s.sys.fs.groups.lookup dir = some .log then "log.txt" else "description").toList ∨
      (⟨dir, key⟩ : Path) ∈ s.sys.fs.items
  | .item _ => (CfgAttr.ofName key).isSome

/-- `echo value > key`. Directories and the attributes of `ikgt_agent` and the groups cannot be
written. -/
def echoTo (sh : Shell) (s : ScriptState) (key value : List Char) : Cwd → ScriptState
  | .item p =>
    match CfgAttr.ofName key with
    | some attr =>
      let (ok, s) := s.exec (attr.store p (sh.echo value))
      if ok then s else s.exit
    | none => s.exit
  | .base | .group _ => s.exit

end ScriptState

/-! ## The script -/

/-- `log_val`. -/
def logVal : List Char := "log.txt".toList

mutual

/-- The body of the loop, by the value. -/
def parseValue (sh : Shell) (cwd : Cwd) (key : List Char) :
    PolicyData → ScriptState → ScriptState
  | .dict entries, s =>
    match cwd.mkdir key with
    | none => s
    | some op =>
      let (ok, s) := s.exec op
      if ok then parseAndCreateDirStructure sh (cwd.chdir key) entries s else s
  | .text value, s =>
    if key = logVal then if sh.touch value then s else s.exit
    else if s.pathExists key cwd then s.echoTo sh key value cwd
    else s

/-- The body of the loop. -/
def parseEntry (sh : Shell) (cwd : Cwd) : DictEntry → ScriptState → ScriptState
  | (key, value), s => parseValue sh cwd key value s

/-- `parse_and_create_dir_structure`. -/
def parseAndCreateDirStructure (sh : Shell) (cwd : Cwd) :
    List DictEntry → ScriptState → ScriptState
  | [], s => s
  | entry :: rest, s =>
    let s := parseEntry sh cwd entry s
    if s.exited then s else parseAndCreateDirStructure sh cwd rest s

end

/-- Applying a policy file, from a driver without items. -/
def applyPolicy (sh : Shell) (policyData : List DictEntry) : ScriptState :=
  parseAndCreateDirStructure sh .base policyData .start

/-! ## Policy documents -/

/-- The dictionary of an item has an `enable`, a `write` and a `sticky_value`. -/
structure IsItemPolicy (entries : List DictEntry) : Prop where
  keys : (entries.map Prod.fst).Nodup
  attrs : ∀ attr : CfgAttr, ∃ value, (attr.name, .text value) ∈ entries

/-- The dictionaries of a section are such items. -/
structure IsSectionPolicy (entries : List DictEntry) : Prop where
  keys : (entries.map Prod.fst).Nodup
  items : ∀ name item, (name, .dict item) ∈ entries → IsItemPolicy item

/-- The cr0, cr4 and msr sections are such sections, and there are only plain words in it. -/
structure IsPolicyDocument (policyData : List DictEntry) : Prop where
  plain : isPlainEntries policyData = true
  keys : (policyData.map Prod.fst).Nodup
  sections : ∀ key entries g, (key, .dict entries) ∈ policyData →
    groupChildrenMakeGroup key = some (.items g) → IsSectionPolicy entries

/-- An item of a policy document, in one order. -/
def itemPolicy (enable write stickyValue : String) : PolicyData :=
  .dict [(CfgAttr.enable.name, .text enable.toList), (CfgAttr.write.name, .text write.toList),
    (CfgAttr.stickyValue.name, .text stickyValue.toList)]

/-- `policy.json`. -/
def policyJson : List DictEntry :=
  [("cr0".toList, .dict [("pg".toList, itemPolicy "1" "3" "0"),
      ("wp".toList, itemPolicy "1" "1" "0")]),
    ("cr4".toList, .dict [("pae".toList, itemPolicy "1" "3" "0")]),
    ("msr".toList, .dict [("efer".toList, itemPolicy "1" "3" "0")]),
    ("log".toList, .dict [("log.txt".toList, .text "/configfs/ikgt_agent/log/log.txt".toList)])]

/-- Both leave the same items and the same map of the handler. -/
def SameOutcome (s s' : ScriptState) : Prop :=
  (∀ p, s.sys.fs.items.lookup p = s'.sys.fs.items.lookup p) ∧ s.sys.table = s'.sys.table

example : (applyPolicy .plain policyJson).sys.table ResourceId.cr0Pg.code = some ⟨0, 0⟩ := by
  decide +kernel

end IkgtUsage
