import IkgtUsage.Driver.Cfg
import Mathlib.Data.List.AList

/-!
# The configfs tree of the driver (`driver/configfs_setup.c`)

Under `ikgt_agent` the user makes group directories, and in these the items. configfs tells names
apart by their exact spelling; the driver compares them without regard to case. So there can be
several directories for one group, and several items for one resource.

`Configfs.exec` is one operation of the user: the tree it leaves, the message the driver sends, if
any, and what the operation returns. Left out: the attributes of the log group and the texts that
are only shown.
-/

namespace IkgtUsage

/-! ## Groups -/

/-- The groups that hold policy items. -/
inductive CfgGroup
  | cr0 | cr4 | msr
  deriving DecidableEq, Repr

namespace CfgGroup

/-- The file of the group. -/
def kind : CfgGroup → CfgKind
  | cr0 => cr0Kind
  | cr4 => cr4Kind
  | msr => msrKind

/-- `ct_group_ops->make_item`. -/
def makeItem : (g : CfgGroup) → Bool → List Char → Except Errno (Cfg g.kind)
  | cr0 => cr0MakeItem
  | cr4 => cr4MakeItem
  | msr => msrMakeItem

/-- The store to `write`. -/
def storeWrite : (g : CfgGroup) → Cfg g.kind → List Char → StoreResult g.kind
  | cr0 => cr0CfgStoreWrite
  | cr4 => cr4CfgStoreWrite
  | msr => msrCfgStoreWrite

/-- The store to `sticky_value`. -/
def storeStickyValue : (g : CfgGroup) → Cfg g.kind → List Char → StoreResult g.kind
  | cr0 => cr0CfgStoreStickyValue
  | cr4 => cr4CfgStoreStickyValue
  | msr => msrCfgStoreStickyValue

/-- The store to `enable`. -/
def storeEnable : (g : CfgGroup) → Answers → Cfg g.kind → List Char → StoreResult g.kind
  | cr0 => cr0CfgStoreEnable
  | cr4 => cr4CfgStoreEnable
  | msr => msrCfgStoreEnable

theorem makeItem_eq (g : CfgGroup) : g.makeItem = IkgtUsage.makeItem g.kind := by cases g <;> rfl

theorem storeWrite_eq (g : CfgGroup) : g.storeWrite = cfgStoreWrite := by cases g <;> rfl

theorem storeStickyValue_eq (g : CfgGroup) : g.storeStickyValue = cfgStoreStickyValue := by
  cases g <;> rfl

theorem storeEnable_eq (g : CfgGroup) : g.storeEnable = cfgStoreEnable := by cases g <;> rfl

end CfgGroup

/-- The item type of a directory. -/
inductive GroupType
  | items (g : CfgGroup)
  | log
  deriving DecidableEq, Repr

/-- `group_children_make_group`: the type it gives a directory of this name, if any. -/
def groupChildrenMakeGroup (name : List Char) : Option GroupType :=
  if strcasecmp name "cr0".toList then some (.items .cr0)
  else if strcasecmp name "cr4".toList then some (.items .cr4)
  else if strcasecmp name "msr".toList then some (.items .msr)
  else if strcasecmp name "log".toList then some .log
  else none

/-! ## The tree -/

/-- Where an item is: the name of its directory and its own name. -/
structure Path where
  dir : List Char
  name : List Char
  deriving DecidableEq, Repr

/-- An item of the tree. -/
structure Item where
  group : CfgGroup
  cfg : Cfg group.kind

/-- The resource an item stands for. -/
def Item.resource (item : Item) : ResourceId := item.cfg.row.resId

/-- The directories and the items under `ikgt_agent`. -/
structure Configfs where
  groups : AList fun _ : List Char => GroupType
  items : AList fun _ : Path => Item

/-- The tree after `init_configfs_setup`. -/
def Configfs.empty : Configfs := ⟨∅, ∅⟩

/-- What the user does. -/
inductive CfgOp
  | mkdirGroup (dir : List Char) (answers : Answers)
  | rmdirGroup (dir : List Char)
  | mkdir (p : Path) (answers : Answers)
  | rmdir (p : Path)
  | storeWrite (p : Path) (page : List Char)
  | storeStickyValue (p : Path) (page : List Char)
  | storeEnable (p : Path) (page : List Char) (answers : Answers)
  deriving DecidableEq, Repr

/-- The outcome of an operation. -/
structure OpResult where
  fs : Configfs
  sent : Option PolicyMessage
  ret : Except Errno Nat

namespace Configfs

/-- An operation that fails. -/
def fail (fs : Configfs) (e : Errno) : OpResult := ⟨fs, none, .error e⟩

/-- A store to an attribute of the item at `p`. -/
def store (fs : Configfs) (p : Path)
    (f : (g : CfgGroup) → Cfg g.kind → StoreResult g.kind) : OpResult :=
  match fs.items.lookup p with
  | none => fs.fail .enoent
  | some item =>
    let result := f item.group item.cfg
    ⟨{ fs with items := fs.items.insert p ⟨item.group, result.cfg⟩ }, result.sent, result.ret⟩

/-- One operation. configfs refuses a directory that was given no type, and items in a directory
without `make_item`, which `log` is. -/
def exec (fs : Configfs) : CfgOp → OpResult
  | .mkdirGroup dir answers =>
    if dir ∈ fs.groups then fs.fail .eexist
    else if !answers.allocated then fs.fail .enomem
    else
      match groupChildrenMakeGroup dir with
      | none => fs.fail .einval
      | some type => ⟨{ fs with groups := fs.groups.insert dir type }, none, .ok 0⟩
  | .rmdirGroup dir =>
    if dir ∉ fs.groups then fs.fail .enoent
    else if fs.items.keys.any fun p => p.dir = dir then fs.fail .enotempty
    else ⟨{ fs with groups := fs.groups.erase dir }, none, .ok 0⟩
  | .mkdir p answers =>
    match fs.groups.lookup p.dir with
    | none => fs.fail .enoent
    | some .log => fs.fail .eperm
    | some (.items g) =>
      if p ∈ fs.items then fs.fail .eexist
      else
        match g.makeItem answers.allocated p.name with
        | .error e => fs.fail e
        | .ok cfg => ⟨{ fs with items := fs.items.insert p ⟨g, cfg⟩ }, none, .ok 0⟩
  | .rmdir p =>
    if p ∉ fs.items then fs.fail .enoent
    else ⟨{ fs with items := fs.items.erase p }, none, .ok 0⟩
  | .storeWrite p page => fs.store p fun g cfg => g.storeWrite cfg page
  | .storeStickyValue p page => fs.store p fun g cfg => g.storeStickyValue cfg page
  | .storeEnable p page answers => fs.store p fun g cfg => g.storeEnable answers cfg page

/-- The operation as a step of the tree. -/
def step (fs : Configfs) (op : CfgOp) : Configfs := (fs.exec op).fs

/-- The messages the operations send, in order. -/
def messages : Configfs → List CfgOp → List PolicyMessage
  | _, [] => []
  | fs, op :: ops => (fs.exec op).sent.toList ++ messages (fs.step op) ops

end Configfs

end IkgtUsage
