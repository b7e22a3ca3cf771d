import Provision.Plan.Action
import Provision.Plan.Context
import Provision.Plan.Creation
import Provision.Plan.Fragment
/-!
# The mount walk

Mounting a node gives a fragment: the node's own activation before that of the nodes below, both between its hooks, and
its own mounts over those of the nodes below.  A filesystem is entered by its mountpoint, a swap device by its path.
-/
namespace Provision

abbrev MountFragment := Fragment (Step Activation) Mounting

namespace Spec

/-- Where a subvolume is mounted: at its own mountpoint, else below the root by its name, unless the filesystem around it
is mounted itself. -/
def subvolumeMountpoint (name : Value) (mountpoint : Option String) (ctx : Context) : Except Fault (Option String) :=
  match mountpoint, ctx.btrfsMountpoint with
  | some m, _ => .ok (some m)
  | none, some _ => .ok none
  | none, none => do
    let path ← name.withoutLeadingSlashes
    return some ("/" ++ path)

def subvolumeOptions (name : Value) (mountOptions : List String) : List String :=
  mountOptions ++ ["subvol=" ++ name.toText]

def mountProperty (options : Properties) : String := (options.lookup "mountpoint").getD ""

/-- Where the mountpoint is not left to the table of filesystems, the pool's own mount helper is used. -/
def poolOptions (options : Properties) (mountOptions : List String) : List String :=
  if mountProperty options = "legacy" then mountOptions else mountOptions ++ ["zfsutil"]

/-- Where a dataset is mounted, if it is: it has to be a filesystem with a mountpoint that its properties do not undo. -/
def datasetMountpoint (type : DatasetType) (options : Properties) (mountpoint : Option String) : Option String :=
  match type with
  | .volume => none
  | .filesystem => if mountProperty options = "none" then none else mountpoint

def activation (spec : Spec) (ctx : Context) : List Activation :=
  match spec with
  | volumeGroup name => [.activateGroup name]
  | pool name .. => [.importPool name]
  | array name .. => [.assembleArray (DevicePath.array name.toText)]
  | luks name keyFile _ => [.unlock ctx.device name keyFile]
  | _ => []

/-- The values that the activation and the mount of a node are written from; `mounted` says that it is mounted. -/
def mountWritten (spec : Spec) (ctx : Context) (mounted : Bool) : List Value :=
  match spec with
  | filesystem format .. => [ctx.device, format]
  | btrfs .. => if mounted then [ctx.device] else []
  | subvolume name .. => if mounted then [ctx.device, name] else []
  | volumeGroup name | pool name .. | array name .. => [name]
  | dataset name .. => if mounted then [ctx.pool, name] else []
  | luks name keyFile _ => [ctx.device, name, keyFile]
  | nodev fsType device .. => [device, fsType]
  | _ => []

def mounting (spec : Spec) (ctx : Context) : Except Fault (Option (String × Mounting)) :=
  let entry (mountpoint : String) (source : Value) (options : List String) (fsType : Value) :=
    (mountpoint, Mounting.filesystem source ctx.root mountpoint options fsType)
  match spec with
  | filesystem format mountpoint _ mountOptions => .ok (some (entry mountpoint ctx.device mountOptions format))
  | btrfs _ mountOptions mountpoint => .ok (mountpoint.map (fun m => entry m ctx.device mountOptions .null))
  | subvolume name _ mountOptions mountpoint => do
    let m ← subvolumeMountpoint name mountpoint ctx
    return m.map (fun m => entry m ctx.device (subvolumeOptions name mountOptions) .null)
  | swap _ => do
    let device ← ctx.device.asText
    return some (device, .swap device)
  | pool name _ options _ mountpoint mountOptions =>
    .ok (mountpoint.map (fun m => entry m name (poolOptions options mountOptions) (.text "zfs")))
  | dataset name type options mountOptions mountpoint _ =>
    .ok ((datasetMountpoint type options mountpoint).map (fun m =>
      entry m (.text (ctx.pool.toText ++ "/" ++ name.toText)) (poolOptions options mountOptions) (.text "zfs")))
  | nodev fsType device mountpoint mountOptions => .ok (some (entry mountpoint device mountOptions fsType))
  | _ => .ok none

end Spec

namespace Node

mutual

def mount : Node → Context → Logged MountFragment
  | ⟨_, spec, hooks, children⟩, ctx => do
    let below ← if spec.places && !children.isEmpty then do
        let inner ← spec.enter ctx
        mountAll children inner .empty
      else pure .empty
    let own ← spec.mounting ctx
    Value.requireWritable (spec.mountWritten ctx own.isSome)
    return ⟨[.hook hooks.preMount] ++ (spec.activation ctx).map .run ++ below.activation ++ [.hook hooks.postMount],
      match own with
      | some (path, m) => below.mounts.put path m
      | none => below.mounts⟩

def mountAll : List Node → Context → MountFragment → Logged MountFragment
  | [], _, acc => pure acc
  | n :: ns, ctx, acc => do
    let f ← mount n ctx
    let acc ← acc.add f
    mountAll ns ctx acc

end

end Node

def activationText (steps : List (Step Activation)) : String := String.join (steps.map (Step.script Activation.script))

end Provision
