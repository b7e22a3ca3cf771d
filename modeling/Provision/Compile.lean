import Provision.Layout.Read
import Provision.Metadata
import Provision.Plan.Facts
import Provision.Plan.Tools
/-!
# Compiling a layout

`compile` reads a layout and makes everything from it: the order of its devices, the creation and the mount script, the
configuration facts, the packages and the metadata.  It makes all of them or none.
-/
namespace Provision

open Value (Entries)

namespace Device

def ref (d : Device) : DeviceRef := ⟨d.group.name, d.node.key⟩

def context (d : Device) (root : String) (members : List Recording) : Context :=
  { parent := some d.ref, root := root, members := members }

end Device

namespace Node

mutual

/-- The aggregates that the members of a tree feed, in its order.  All members count, also those that a dataset holds
without placing them. -/
def memberships : Node → List (Group × Value)
  | ⟨_, spec, _, children⟩ => spec.membership?.toList ++ membershipsAll children

def membershipsAll : List Node → List (Group × Value)
  | [] => []
  | n :: ns => memberships n ++ membershipsAll ns

end

/-- The facts that the members of a tree contribute, each naming the device it lies under. -/
def metadata (n : Node) (parent : Option DeviceRef) : Except Fault Entries := do
  n.checkArrayPath
  let producer := (parent.map DeviceRef.toValue).getD .null
  let parts ← n.memberships.mapM (fun m => Metadata.dependency m.1.name m.2 producer)
  return Metadata.mergeAll parts

end Node

namespace Layout

def refs (l : Layout) : List DeviceRef := l.devices.map Device.ref

def metadata (l : Layout) : Except Fault Entries := do
  let parts ← l.devices.mapM (fun d => d.node.metadata (some d.ref))
  return Metadata.mergeAll parts

def order (l : Layout) (metadata : Entries) : Logged (List DeviceRef) := do
  let order ← Requirement.sort (Metadata.requirements metadata) l.refs
  logDebug ("Resolved device order: " ++ ", ".intercalate (order.map DeviceRef.text))
  return order

def inOrder (l : Layout) (order : List DeviceRef) : List Device :=
  order.filterMap (fun r => l.devices.find? (fun d => d.ref == r))

def createPreamble : String :=
  "#!/bin/sh\nset -efu\n\nstrata_devices_dir=$(mktemp -d)\ntrap 'rm -rf \"$strata_devices_dir\"' EXIT\n\n"

def mountPreamble : String := "#!/bin/sh\nset -efu\n\n"

/-- The creation of devices one after the other; each sees the members that those before it recorded. -/
def createDevices (root : String) : List Device → List Recording → Creation Unit
  | [], _ => pure ()
  | d :: ds, members => do
    Creation.log (logDebug ("Assembling creation commands for " ++ d.ref.text))
    let walk := d.node.create (d.context root members)
    walk
    createDevices root ds (members ++ Creation.recordings walk.record)

def creation (l : Layout) (root : String) (order : List DeviceRef) : Creation Unit :=
  createDevices root (l.inOrder order) []

def stepsOf (c : Creation Unit) : Logged (List (Step Action)) :=
  ⟨Creation.messages c.record, c.outcome.map (fun _ => Creation.steps c.record)⟩

def createScript (l : Layout) (root : String) (order : List DeviceRef) : Logged String := do
  let steps ← stepsOf (l.creation root order)
  return createPreamble ++ creationText steps

def mountDevices (root : String) : List Device → MountFragment → Logged MountFragment
  | [], acc => pure acc
  | d :: ds, acc => do
    let f ← d.node.mount (d.context root [])
    let acc ← acc.add f
    mountDevices root ds acc

def mountFragment (l : Layout) (root : String) (order : List DeviceRef) : Logged MountFragment :=
  mountDevices root (l.inOrder order) .empty

/-- The text of a mount fragment: activations in order, then mounts sorted by path. -/
def mountText (f : MountFragment) : String :=
  mountPreamble ++ "# activate devices\n" ++ activationText f.activation ++ "\n# mount filesystems\n" ++
    String.join (f.mounts.sorted.map (fun m => m.2.script))

def mountScript (l : Layout) (root : String) (order : List DeviceRef) : Logged String := do
  let f ← l.mountFragment root order
  return mountText f

def facts (l : Layout) : Except Fault (List Fact) := do
  let facts ← l.devices.mapM (fun d => d.node.facts { parent := some d.ref })
  return facts.flatten

def tools (l : Layout) : Except Fault (List String) := do
  let tools ← l.devices.mapM (fun d => d.node.tools)
  return sortedOnce tools.flatten

end Layout

structure Compiled where
  order : List DeviceRef
  createScript : String
  mountScript : String
  facts : List Fact
  tools : List String
  metadata : Entries

def defaultRoot : String := "/mnt"

def compile (tree : Value) (root : String) : Logged Compiled := do
  let layout ← Layout.read tree
  let metadata ← layout.metadata
  let order ← layout.order metadata
  logInfo ("Device order: " ++
    (if order.isEmpty then "(empty)" else ", ".intercalate (order.map DeviceRef.text)))
  let createScript ← layout.createScript root order
  let mountScript ← layout.mountScript root order
  let facts ← layout.facts
  let tools ← layout.tools
  logDebug ("Compiled " ++ toString order.length ++ " device(s), " ++ toString facts.length ++ " configuration fact(s)")
  return ⟨order, createScript, mountScript, facts, tools, metadata⟩

end Provision
