import Provision.Layout.Node
/-!
# The normal form of a layout

A layout that was read, written again as a value: every option is there under one name, with its default where it was
left out, and every node tells its kind and its four hooks.
-/
namespace Provision

open Value (Entries)

namespace Hooks

def toValue (h : Hooks) : Value :=
  .map [(.text "pre_create", .text h.preCreate), (.text "post_create", .text h.postCreate),
    (.text "pre_mount", .text h.preMount), (.text "post_mount", .text h.postMount)]

end Hooks

namespace Spec

def texts (ts : List String) : Value := .list (ts.map Value.text)

def textOrNull (t : Option String) : Value := (t.map Value.text).getD .null

def propertiesValue (ps : Properties) : Value := .map (ps.map (fun p => (.text p.1, .text p.2)))

def fields : Spec → List (String × Value)
  | disk name device => [("name", name), ("device", device)]
  | table format => [("format", .text format.name)]
  | partition name partType fsType start stop index flags bootable =>
    [("name", name), ("part_type", partType), ("fs_type", fsType), ("start", start), ("end", stop), ("index", index),
     ("flags", texts flags), ("bootable", bootable)]
  | filesystem format mountpoint extraArgs mountOptions =>
    [("format", format), ("mountpoint", .text mountpoint), ("extra_args", texts extraArgs),
     ("mount_options", texts mountOptions)]
  | btrfs extraArgs mountOptions mountpoint =>
    [("extra_args", texts extraArgs), ("mount_options", texts mountOptions), ("mountpoint", textOrNull mountpoint)]
  | subvolume name extraArgs mountOptions mountpoint =>
    [("name", name), ("extra_args", texts extraArgs), ("mount_options", texts mountOptions),
     ("mountpoint", textOrNull mountpoint)]
  | swap randomEncryption => [("random_encryption", randomEncryption)]
  | physicalVolume group => [("vg", group)]
  | volumeGroup name => [("name", name)]
  | logicalVolume name size type extraArgs =>
    [("name", name), ("size", size), ("lvm_type", type), ("extra_args", texts extraArgs)]
  | poolMember target => [("pool", target)]
  | pool name mode options rootOptions mountpoint mountOptions =>
    [("name", name), ("mode", mode), ("options", propertiesValue options),
     ("root_fs_options", propertiesValue rootOptions), ("mountpoint", textOrNull mountpoint),
     ("mount_options", texts mountOptions)]
  | dataset name type options mountOptions mountpoint size =>
    [("name", name), ("zfs_type", .text type.name), ("options", propertiesValue options),
     ("mount_options", texts mountOptions), ("mountpoint", textOrNull mountpoint), ("size", size)]
  | arrayMember name => [("name", name)]
  | array name level metadata => [("name", name), ("level", level), ("metadata", metadata)]
  | luks name keyFile extraArgs => [("name", name), ("key_file", keyFile), ("extra_args", texts extraArgs)]
  | nodev fsType device mountpoint mountOptions =>
    [("fs_type", fsType), ("device", device), ("mountpoint", .text mountpoint), ("mount_options", texts mountOptions)]

def heldField (spec : Spec) (children : List (String × Value)) : List (String × Value) :=
  let content := ("content", (children.head?.map (·.2)).getD .null)
  let named := Value.map (children.map (fun c => (.text c.1, c.2)))
  match spec with
  | disk .. | partition .. | logicalVolume .. | dataset .. | array .. | luks .. => [content]
  | table .. => [("partitions", .list (children.map (·.2)))]
  | btrfs .. => [("subvolumes", named)]
  | volumeGroup .. => [("lvs", named)]
  | pool .. => [("datasets", named)]
  | _ => []

end Spec

namespace Node

mutual

def toValue : Node → Value
  | ⟨_, spec, hooks, children⟩ =>
    .map (((("type", .text spec.kind.name) :: spec.fields ++ spec.heldField (toValues children)) ++
      [("hooks", hooks.toValue)]).map (fun f => (.text f.1, f.2)))

def toValues : List Node → List (String × Value)
  | [] => []
  | n :: ns => (n.key, toValue n) :: toValues ns

end

end Node

namespace Layout

def toValue (l : Layout) : Value :=
  .map (Group.all.map (fun g =>
    (.text g.name, .map ((l.devices.filter (·.group == g)).map (fun d => (.text d.node.key, d.node.toValue))))))

end Layout

end Provision
