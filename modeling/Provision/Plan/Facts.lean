import Provision.Host.Fact
import Provision.Plan.Mount
/-!
# The configuration walk

The facts of a layout in the order of its declaration.  A container is unlocked before what lies in it; a filesystem that
holds others, and the module that a logical volume needs, come after the nodes below.
-/
namespace Provision

namespace Spec

def optionValues (options : List String) : List Value := options.map Value.text

def factsBefore (spec : Spec) (ctx : Context) : Except Fault (List Fact) :=
  match spec with
  | filesystem format mountpoint _ mountOptions =>
    .ok [.filesystem (.text mountpoint) ctx.device format (optionValues mountOptions)]
  | subvolume name _ mountOptions mountpoint => do
    let m ← subvolumeMountpoint name mountpoint ctx
    return (m.map (fun m =>
      Fact.filesystem (.text m) ctx.device (.text "btrfs") (optionValues (subvolumeOptions name mountOptions)))).toList
  | swap randomEncryption => .ok [.swap ctx.device randomEncryption]
  | dataset name type options mountOptions mountpoint _ =>
    .ok ((datasetMountpoint type options mountpoint).map (fun m =>
      Fact.filesystem (.text m) (.text (ctx.pool.toText ++ "/" ++ name.toText)) (.text "zfs")
        (optionValues (poolOptions options mountOptions)))).toList
  | luks name keyFile _ => .ok [.unlock name ctx.device keyFile]
  | nodev fsType device mountpoint mountOptions =>
    .ok [.filesystem (.text mountpoint) device fsType (optionValues mountOptions)]
  | _ => .ok []

def factsAfter (spec : Spec) (ctx : Context) : List Fact :=
  match spec with
  | btrfs _ mountOptions mountpoint =>
    (mountpoint.map (fun m =>
      Fact.filesystem (.text m) ctx.device (.text "btrfs") (optionValues mountOptions))).toList
  | logicalVolume _ _ type _ => if type.isGiven then [.kernelModule (.text ("dm-" ++ type.toText))] else []
  | pool name _ options _ mountpoint mountOptions =>
    (mountpoint.map (fun m =>
      Fact.filesystem (.text m) name (.text "zfs") (optionValues (poolOptions options mountOptions)))).toList
  | _ => []

/-- The values that the facts before those of the nodes below are written from; `mounted` says that there are any. -/
def factsWritten (spec : Spec) (ctx : Context) (mounted : Bool) : List Value :=
  match spec with
  | subvolume name .. => if mounted then [name] else []
  | dataset name .. => if mounted then [ctx.pool, name] else []
  | _ => []

/-- The values that the facts after those of the nodes below are written from. -/
def factsAfterWritten : Spec → List Value
  | logicalVolume _ _ type _ => [type]
  | _ => []

end Spec

namespace Node

mutual

def facts : Node → Context → Except Fault (List Fact)
  | ⟨_, spec, _, children⟩, ctx => do
    let before ← spec.factsBefore ctx
    Value.requireWritable (spec.factsWritten ctx !before.isEmpty)
    let below ← if spec.places && !children.isEmpty then do
        let inner ← spec.enter ctx
        factsAll children inner
      else pure []
    Value.requireWritable spec.factsAfterWritten
    return before ++ below ++ spec.factsAfter ctx

def factsAll : List Node → Context → Except Fault (List Fact)
  | [], _ => .ok []
  | n :: ns, ctx => do
    let first ← facts n ctx
    let rest ← factsAll ns ctx
    return first ++ rest

end

end Node

end Provision
