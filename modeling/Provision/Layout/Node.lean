import Provision.Layout.Kind
import Provision.Value.Basic
/-!
# Nodes of a layout

A layout is a tree.  What one node declares is its `Spec`, by kind; options that are used as they are written stay values,
those with a structure of their own are read into it.  A node adds the hooks around it and the nodes it holds: at most one
in a content slot, the partitions of a table, or a named collection.
-/
namespace Provision

/-- Shell text that runs before and after the commands of a node. -/
structure Hooks where
  preCreate : String := ""
  postCreate : String := ""
  preMount : String := ""
  postMount : String := ""
  deriving DecidableEq, Repr, Inhabited

inductive TableFormat where
  | gpt | msdos
  deriving DecidableEq, Repr, Inhabited

namespace TableFormat

def name : TableFormat → String
  | gpt => "gpt"
  | msdos => "msdos"

def ofValue? : Value → Option TableFormat
  | .text "gpt" => some gpt
  | .text "msdos" => some msdos
  | _ => none

end TableFormat

inductive DatasetType where
  | filesystem | volume
  deriving DecidableEq, Repr, Inhabited

namespace DatasetType

def name : DatasetType → String
  | filesystem => "filesystem"
  | volume => "volume"

def ofValue? : Value → Option DatasetType
  | .text "filesystem" => some filesystem
  | .text "volume" => some volume
  | _ => none

end DatasetType

/-- Options written as name and value. -/
abbrev Properties := List (String × String)

/-- What a node declares. -/
inductive Spec where
  | disk (name device : Value)
  | table (format : TableFormat)
  | partition (name partType fsType start stop index : Value) (flags : List String) (bootable : Value)
  | filesystem (format : Value) (mountpoint : String) (extraArgs mountOptions : List String)
  | btrfs (extraArgs mountOptions : List String) (mountpoint : Option String)
  | subvolume (name : Value) (extraArgs mountOptions : List String) (mountpoint : Option String)
  | swap (randomEncryption : Value)
  | physicalVolume (group : Value)
  | volumeGroup (name : Value)
  | logicalVolume (name size type : Value) (extraArgs : List String)
  | poolMember (pool : Value)
  | pool (name mode : Value) (options rootOptions : Properties) (mountpoint : Option String) (mountOptions : List String)
  | dataset (name : Value) (type : DatasetType) (options : Properties) (mountOptions : List String)
      (mountpoint : Option String) (size : Value)
  | arrayMember (name : Value)
  | array (name level metadata : Value)
  | luks (name keyFile : Value) (extraArgs : List String)
  | nodev (fsType device : Value) (mountpoint : String) (mountOptions : List String)
  deriving Inhabited

namespace Spec

def kind : Spec → Kind
  | disk .. => .disk
  | table .. => .table
  | partition .. => .partition
  | filesystem .. => .filesystem
  | btrfs .. => .btrfs
  | subvolume .. => .subvolume
  | swap .. => .swap
  | physicalVolume .. => .physicalVolume
  | volumeGroup .. => .volumeGroup
  | logicalVolume .. => .logicalVolume
  | poolMember .. => .poolMember
  | pool .. => .pool
  | dataset .. => .dataset
  | arrayMember .. => .arrayMember
  | array .. => .array
  | luks .. => .luks
  | nodev .. => .nodev

/-- What tells a node from others of its kind: its name, else its device, its mountpoint or its format. -/
def label : Spec → Value
  | disk name device => if name.isGiven then name else device
  | table format => .text format.name
  | partition name .. => name
  | filesystem _ mountpoint .. => .text mountpoint
  | btrfs _ _ mountpoint => .text (mountpoint.getD "")
  | subvolume name _ _ mountpoint => if name.isGiven then name else .text (mountpoint.getD "")
  | swap _ => .null
  | physicalVolume _ => .null
  | volumeGroup name => name
  | logicalVolume name .. => name
  | poolMember _ => .null
  | pool name _ _ _ mountpoint _ => if name.isGiven then name else .text (mountpoint.getD "")
  | dataset name _ _ _ mountpoint _ => if name.isGiven then name else .text (mountpoint.getD "")
  | arrayMember name => name
  | array name .. => name
  | luks name .. => name
  | nodev _ device mountpoint _ => if device.isGiven then device else .text mountpoint

/-- The aggregate that a member feeds: its group and its name. -/
def membership? : Spec → Option (Group × Value)
  | physicalVolume group => some (.volumeGroup, group)
  | poolMember target => some (.pool, target)
  | arrayMember name => some (.array, name)
  | _ => none

/-- The aggregate that a node is: its group and its name. -/
def aggregate? : Spec → Option (Group × Value)
  | volumeGroup name => some (.volumeGroup, name)
  | pool name .. => some (.pool, name)
  | array name .. => some (.array, name)
  | _ => none

end Spec

/-- A node: the key under which its parent lists it, what it declares, its hooks, and the nodes it holds. -/
structure Node where
  key : String
  spec : Spec
  hooks : Hooks
  children : List Node
  deriving Inhabited

structure Device where
  group : Group
  node : Node

structure Layout where
  devices : List Device

end Provision
