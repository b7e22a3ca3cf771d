import Provision.Layout.Node
import Provision.Fault
/-!
# The packages that the scripts need

Every kind of node names the packages whose programs its commands call; a filesystem names that of its format.  All nodes
count, also those that a dataset holds without placing them.
-/
namespace Provision

namespace Spec

/-- The package that makes filesystems of a format, where the base system does not. -/
def formatPackage? (format : Value) : Option String :=
  match format with
  | .text "xfs" => some "xfsprogs"
  | .text "btrfs" => some "btrfs-progs"
  | .text "vfat" => some "dosfstools"
  | .text "ext2" | .text "ext3" | .text "ext4" => some "e2fsprogs"
  | .text "bcachefs" => some "bcachefs-tools"
  | _ => none

def tools : Spec → Except Fault (List String)
  | table _ => .ok ["parted", "systemd"]
  | filesystem format .. =>
    if format.isKey then .ok ("util-linux" :: (formatPackage? format).toList) else .error (.misuse .unhashable)
  | btrfs .. => .ok ["btrfs-progs"]
  | subvolume .. => .ok ["coreutils"]
  | swap _ => .ok ["gnugrep", "util-linux"]
  | physicalVolume _ | volumeGroup _ => .ok ["lvm2"]
  | poolMember _ => .ok ["zfs"]
  | pool .. => .ok ["util-linux", "zfs"]
  | dataset .. => .ok ["util-linux"]
  | arrayMember _ | array .. => .ok ["mdadm"]
  | luks .. => .ok ["cryptsetup"]
  | disk .. | partition .. | logicalVolume .. | nodev .. => .ok []

end Spec

namespace Node

/-- The path of an array is derived for what it holds even where no path is needed. -/
def checkArrayPath : Node → Except Fault Unit
  | ⟨_, .array name .., _, _ :: _⟩ => Value.requireWritable [name]
  | _ => .ok ()

mutual

def tools : Node → Except Fault (List String)
  | ⟨key, spec, hooks, children⟩ => do
    let own ← spec.tools
    checkArrayPath ⟨key, spec, hooks, children⟩
    let below ← toolsAll children
    return own ++ below

def toolsAll : List Node → Except Fault (List String)
  | [] => .ok []
  | n :: ns => do
    let first ← tools n
    let rest ← toolsAll ns
    return first ++ rest

end

end Node

def sortedOnce (ts : List String) : List String := ts.eraseDups.mergeSort (fun s t => s ≤ t)

theorem mem_sortedOnce {ts : List String} {t : String} : t ∈ sortedOnce ts ↔ t ∈ ts := by
  simp [sortedOnce, List.mem_eraseDups]

end Provision
