import Provision.Plan.Action
import Provision.Plan.Context
/-!
# The creation walk

Creating a node gives its own commands, then those of the nodes below, between a comment that names it, its hooks and a
message.  A member of an aggregate records its device; an aggregate reads the devices recorded before its walk began.
Steps, recordings and messages are one record in the order in which they arise, and the record survives a fault.
-/
namespace Provision

/-- What the creation walk records. -/
inductive CreationEvent where
  | step (s : Step Action)
  | message (m : Message)
  | recording (r : Recording)

abbrev Creation := Traced CreationEvent

namespace Creation

def step (s : Step Action) : Creation Unit := .tell (.step s)

def run (a : Action) : Creation Unit := step (.run a)

def log {α : Type} (x : Logged α) : Creation α := x.mapRecord .message

def remember (group : Group) (name device : Value) : Creation Unit := do
  let r ← log (Recording.record ⟨group.name, name, device⟩)
  .tell (.recording r)

def steps (events : List CreationEvent) : List (Step Action) :=
  events.filterMap (fun e => match e with
    | .step s => some s
    | _ => none)

def messages (events : List CreationEvent) : List Message :=
  events.filterMap (fun e => match e with
    | .message m => some m
    | _ => none)

def recordings (events : List CreationEvent) : List Recording :=
  events.filterMap (fun e => match e with
    | .recording r => some r
    | _ => none)

end Creation

namespace Value

/-- Whether a value holds a percent sign: as a character of a text, or as an item or key of a collection. -/
def hasPercent : Value → Except Fault Bool
  | text s => .ok (s.toList.contains '%')
  | list xs => .ok (xs.any (fun x => same x (text "%")))
  | set xs => .ok (xs.any (fun x => same x (text "%")))
  | map es => .ok (es.any (fun e => same e.1 (text "%")))
  | pair k v => .ok (same k (text "%") || same v (text "%"))
  | _ => .error (.misuse .wrongOperand)

def blankWords : Value → Except Fault (List String)
  | text s => .ok ((Text.words s.toList).map String.ofList)
  | bytes bs => .ok ((Text.runs (fun b => b = 32 || (9 ≤ b && b ≤ 13)) bs).map bytesLiteral)
  | _ => .error (.misuse .noTextOperation)

def withoutLeadingSlashes : Value → Except Fault String
  | text s => .ok (String.ofList (s.toList.dropWhile (· == '/')))
  | bytes _ => .error (.misuse .wrongOperand)
  | _ => .error (.misuse .noTextOperation)

def asText : Value → Except Fault String
  | text s => .ok s
  | _ => .error (.misuse .wrongOperand)

end Value

namespace Group

def title : Group → String
  | array => "RAID array"
  | pool => "Pool"
  | volumeGroup => "Volume group"
  | g => g.name

end Group

/-- The devices of an aggregate, as paths, and a message that lists them. -/
def memberPaths (group : Group) (name : Value) (ctx : Context) : Creation (List String) := do
  let devices ← Creation.log (Recording.collect ctx.members group.name name)
  Value.requireWritable [name]
  let paths ← devices.mapM (fun d => liftM d.asText)
  let listed := ", ".intercalate paths
  Creation.log (logDebug (group.title ++ " " ++ name.toText ++ " uses " ++ (if listed = "" then "no devices" else listed)))
  return paths

namespace Spec

/-- What the creation of a node is announced with, and the values that are named there; `bare` says that it holds no
nodes. -/
def announcement? (spec : Spec) (ctx : Context) (bare : Bool) : Option (List Value × String) :=
  match spec with
  | disk name device =>
    if bare then some ([name, device], "Disk " ++ name.toText ++ " (" ++ device.toText ++ ") has no content") else none
  | table format => some ([ctx.device], "Creating " ++ format.name ++ " partition table on " ++ ctx.device.toText)
  | filesystem format .. =>
    some ([format, ctx.device], "Creating " ++ format.toText ++ " filesystem on " ++ ctx.device.toText)
  | luks name .. => some ([name, ctx.device], "Setting up LUKS container " ++ name.toText ++ " on " ++ ctx.device.toText)
  | _ => none

/-- What comes before the commands of a node: a member records its device, and an aggregate collects the devices that were
recorded for it, which are the result. -/
def prepare (spec : Spec) (ctx : Context) (bare : Bool) : Creation (List String) :=
  match spec.membership?, spec.aggregate? with
  | some (group, name), _ => do
    Creation.remember group name ctx.device
    return []
  | none, some (group, name) => memberPaths group name ctx
  | none, none =>
    match spec.announcement? ctx bare with
    | some (named, text) => do
      Value.requireWritable named
      Creation.log (logDebug text)
      return []
    | none => return []

/-- What a partition is called in its table: the partitions of an msdos table have types instead of names. -/
def partitionLabel (ctx : Context) (name partType : Value) : Value :=
  if ctx.tableFormat = some .msdos ∨ !name.isGiven then partType else name

def actions (spec : Spec) (ctx : Context) (devices : List String) : Except Fault (List Action) :=
  match spec with
  | disk .. => .ok []
  | table format => .ok [.label ctx.device format]
  | partition name partType fsType start stop index flags bootable =>
    .ok ([.addPartition ctx.device index (partitionLabel ctx name partType) fsType start stop, .settle] ++
      (if bootable.isGiven then [.setFlag ctx.device index "boot"] else []) ++
      flags.map (.setFlag ctx.device index) ++ [.settle])
  | filesystem format _ extraArgs _ => .ok [.format format extraArgs ctx.device]
  | btrfs extraArgs _ _ => .ok [.formatBtrfs ctx.device extraArgs]
  | subvolume name extraArgs _ _ => do
    let path ← name.withoutLeadingSlashes
    return [.addSubvolume ctx.device extraArgs path]
  | swap _ => .ok [.formatSwap ctx.device]
  | physicalVolume _ => .ok [.addPhysicalVolume ctx.device]
  | volumeGroup name => .ok [.createGroup name devices]
  | logicalVolume name size type extraArgs => do
    let inExtents ← size.hasPercent
    return [.createVolume ctx.group name size inExtents type extraArgs]
  | poolMember _ => .ok []
  | pool name mode options rootOptions _ _ => do
    let mode ← mode.blankWords
    return [.createPool name mode options rootOptions devices]
  | dataset name type options _ _ size =>
    let path := ctx.pool.toText ++ "/" ++ name.toText
    match type with
    | .filesystem => .ok [.createDataset path options none]
    | .volume => .ok [.createDataset path options (some size), .settle]
  | arrayMember _ => .ok []
  | array name level metadata =>
    .ok [.createArray (DevicePath.array name.toText) level.toText metadata.toText devices, .settle]
  | luks name keyFile extraArgs => .ok [.encrypt ctx.device keyFile extraArgs, .unlock ctx.device name keyFile]
  | nodev .. => .ok []

/-- The values that the commands of a node are written from.  The command that adds a partition does not say its number. -/
def written (spec : Spec) (ctx : Context) : List Value :=
  match spec with
  | table _ | btrfs .. | subvolume .. | swap _ | physicalVolume _ => [ctx.device]
  | partition name partType fsType start stop index flags bootable =>
    [ctx.device, partitionLabel ctx name partType, fsType, start, stop] ++
      (if bootable.isGiven || !flags.isEmpty then [index] else [])
  | filesystem format .. => [format, ctx.device]
  | volumeGroup name => [name]
  | logicalVolume name size type _ => [size, name, type, ctx.group]
  | pool name .. => [name]
  | dataset name .filesystem .. => [ctx.pool, name]
  | dataset name .volume _ _ _ size => [ctx.pool, name, size]
  | array name level metadata => [name, level, metadata]
  | luks name keyFile _ => [ctx.device, name, keyFile]
  | disk .. | poolMember _ | arrayMember _ | nodev .. => []

def create (spec : Spec) (ctx : Context) (bare : Bool) : Creation Unit := do
  let devices ← spec.prepare ctx bare
  let actions ← spec.actions ctx devices
  Value.requireWritable (spec.written ctx)
  actions.forM Creation.run

end Spec

namespace Node

mutual

def create : Node → Context → Creation Unit
  | ⟨_, spec, hooks, children⟩, ctx => do
    Creation.step (.frame spec.kind spec.label)
    Creation.step (.hook hooks.preCreate)
    spec.create ctx children.isEmpty
    if spec.places && !children.isEmpty then
      let inner ← spec.enter ctx
      createAll children inner
    Creation.step (.hook hooks.postCreate)
    Value.requireWritable [spec.label]
    Creation.log (logDebug ("Built creation commands for " ++ Step.title spec.kind spec.label))

def createAll : List Node → Context → Creation Unit
  | [], _ => pure ()
  | n :: ns, ctx => do
    create n ctx
    createAll ns ctx

end

end Node

def creationText (steps : List (Step Action)) : String := String.join (steps.map (Step.script Action.script))

end Provision
