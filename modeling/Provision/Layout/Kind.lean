/-!
# Kinds of nodes

Every node of a layout has one of seventeen kinds.  A kind is named in a layout by its `name`, and `ofName?` reads exactly
those names (`ofName?_eq_some_iff`).  A content slot takes a single node; `Slot.takes` says of which kinds.
-/
namespace Provision

inductive Kind where
  | disk | table | partition | filesystem | btrfs | subvolume | swap
  | physicalVolume | volumeGroup | logicalVolume
  | poolMember | pool | dataset
  | arrayMember | array
  | luks | nodev
  deriving DecidableEq, Repr, Inhabited

namespace Kind

def name : Kind → String
  | disk => "disk"
  | table => "table"
  | partition => "partition"
  | filesystem => "filesystem"
  | btrfs => "btrfs"
  | subvolume => "btrfs_subvol"
  | swap => "swap"
  | physicalVolume => "lvm_pv"
  | volumeGroup => "lvm_vg"
  | logicalVolume => "lvm_lv"
  | poolMember => "zfs"
  | pool => "zpool"
  | dataset => "zfs_dataset"
  | arrayMember => "mdraid"
  | array => "mdadm"
  | luks => "luks"
  | nodev => "nodev"

def all : List Kind :=
  [disk, table, partition, filesystem, btrfs, subvolume, swap, physicalVolume, volumeGroup, logicalVolume, poolMember,
   pool, dataset, arrayMember, array, luks, nodev]

theorem mem_all (k : Kind) : k ∈ all := by cases k <;> decide

def ofName? (s : String) : Option Kind := all.find? (fun k => k.name == s)

theorem name_injective {k l : Kind} (h : k.name = l.name) : k = l := by
  cases k <;> cases l <;> simp_all [name]

theorem ofName?_eq_some_iff {s : String} {k : Kind} : ofName? s = some k ↔ k.name = s := by
  constructor
  · intro h
    simpa using List.find?_some h
  · rintro rfl
    cases k <;> decide

end Kind

/-- Groups of top-level devices. -/
inductive Group where
  | disk | array | pool | volumeGroup | nodev
  deriving DecidableEq, Repr, Inhabited

namespace Group

/-- The groups, in the order in which their devices are listed. -/
def all : List Group := [disk, array, pool, volumeGroup, nodev]

def kind : Group → Kind
  | disk => .disk
  | array => .array
  | pool => .pool
  | volumeGroup => .volumeGroup
  | nodev => .nodev

def name (g : Group) : String := g.kind.name

theorem mem_all (g : Group) : g ∈ all := by cases g <;> decide

end Group

/-- Where a single node can be placed. -/
inductive Slot where
  /-- On a whole device: a disk, an array, an opened container. -/
  | device
  /-- On a partition, a logical volume or a pool's volume. -/
  | volume
  deriving DecidableEq, Repr

namespace Slot

/-- The kinds that a slot takes: a partition table needs a whole device. -/
def takes : Slot → Kind → Bool
  | device, .table => true
  | _, k => [Kind.btrfs, .filesystem, .poolMember, .arrayMember, .luks, .physicalVolume, .swap].contains k

def names : Slot → List String
  | device => ["btrfs", "filesystem", "luks", "lvm_pv", "mdraid", "swap", "table", "zfs"]
  | volume => ["btrfs", "filesystem", "luks", "lvm_pv", "mdraid", "swap", "zfs"]

end Slot

end Provision
