import Provision.Device.Members
import Provision.Device.Path
import Provision.Layout.Node
/-!
# Contexts

What a node is told by the nodes above it.  `Spec.inner` is the context that a node hands down: the device on which the
nodes below are placed, or the name of the aggregate or filesystem around them.
-/
namespace Provision

structure Context where
  /-- The block device a node is placed on. -/
  device : Value := .null
  /-- The top-level device a node lies under. -/
  parent : Option DeviceRef := none
  /-- The format of the partition table around a node. -/
  tableFormat : Option TableFormat := none
  /-- The name of the volume group around a node. -/
  group : Value := .null
  /-- The name of the pool around a node. -/
  pool : Value := .null
  /-- Where the btrfs filesystem around a node is mounted. -/
  btrfsMountpoint : Option String := none
  /-- The directory on which the root of the target system is mounted. -/
  root : String := "/mnt"
  /-- The members recorded so far. -/
  members : List Recording := []

namespace Spec

def inner (spec : Spec) (ctx : Context) : Except Fault Context :=
  match spec with
  | disk _ device => .ok { ctx with device := device }
  | table format => .ok { ctx with tableFormat := some format }
  | partition _ _ _ _ _ index _ _ => do
    let path ← DevicePath.partition ctx.device index.toText
    return { ctx with device := .text path }
  | btrfs _ _ mountpoint => .ok { ctx with btrfsMountpoint := mountpoint }
  | volumeGroup name => .ok { ctx with group := name }
  | logicalVolume name .. => .ok { ctx with device := .text (DevicePath.logicalVolume ctx.group.toText name.toText) }
  | pool name .. => .ok { ctx with pool := name }
  | dataset name .. => .ok { ctx with device := .text (DevicePath.poolVolume ctx.pool.toText name.toText) }
  | array name .. => .ok { ctx with device := .text (DevicePath.array name.toText) }
  | luks name .. => .ok { ctx with device := .text (DevicePath.mapper name.toText) }
  | _ => .ok ctx

theorem inner_keeps {spec : Spec} {ctx ctx' : Context} (h : spec.inner ctx = .ok ctx') :
    ctx'.parent = ctx.parent ∧ ctx'.root = ctx.root ∧ ctx'.members = ctx.members := by
  cases spec
  case partition index _ _ =>
    cases hp : DevicePath.partition ctx.device index.toText with
    | error e => simp [inner, hp, bind, Except.bind] at h
    | ok p =>
      simp only [inner, hp, bind, Except.bind, pure, Except.pure, Except.ok.injEq] at h
      subst h
      exact ⟨rfl, rfl, rfl⟩
  all_goals
    simp only [inner, Except.ok.injEq] at h
    subst h
    exact ⟨rfl, rfl, rfl⟩

/-- The values that the device of what a node holds is named by. -/
def pathParts (spec : Spec) (ctx : Context) : List Value :=
  match spec with
  | partition _ _ _ _ _ index _ _ => [index]
  | logicalVolume name .. => [ctx.group, name]
  | dataset name .. => [ctx.pool, name]
  | array name .. | luks name .. => [name]
  | _ => []

def enter (spec : Spec) (ctx : Context) : Except Fault Context := do
  let inner ← spec.inner ctx
  Value.requireWritable (spec.pathParts ctx)
  return inner

theorem enter_eq_ok_iff {spec : Spec} {ctx ctx' : Context} :
    spec.enter ctx = .ok ctx' ↔ spec.inner ctx = .ok ctx' ∧ ∀ v ∈ spec.pathParts ctx, v.isWritable = true := by
  unfold enter
  cases spec.inner ctx with
  | error e => simp [bind, Except.bind]
  | ok inner =>
    rw [← Value.requireWritable_eq_ok_iff]
    cases Value.requireWritable (spec.pathParts ctx) <;> simp [bind, Except.bind, pure, Except.pure]

theorem enter_map {spec : Spec} {ctx : Context} {g : Context → Context}
    (hparts : spec.pathParts (g ctx) = spec.pathParts ctx)
    (hinner : spec.inner (g ctx) = (spec.inner ctx).map g) : spec.enter (g ctx) = (spec.enter ctx).map g := by
  rw [enter, enter, hparts, hinner]
  cases spec.inner ctx with
  | error e => rfl
  | ok inner => cases Value.requireWritable (spec.pathParts ctx) <;> rfl

/-- Whether what a node holds is placed on it: a dataset that is a filesystem has no device of its own. -/
def places : Spec → Bool
  | dataset _ .filesystem .. => false
  | _ => true

end Spec

end Provision
