import Provision.Compile
import Provision.Host.Table
import Provision.Json.Writer
import Provision.Proofs.Faults.Layouts
import Provision.Proofs.Mount.Walk
/-!
# What is wrong with what a layout asks for

Compiling a layout fails for what the layout says, never for the machine (`failsIn_compile`).  So does writing what was
compiled as a table or as JSON.
-/
namespace Provision

open Fault (IsInput)

namespace Value

@[grind .] theorem failsIn_asText (v : Value) : FailsIn IsInput v.asText := by
  fun_cases asText v <;> simp

@[grind .] theorem failsIn_withoutLeadingSlashes (v : Value) : FailsIn IsInput v.withoutLeadingSlashes := by
  fun_cases withoutLeadingSlashes v <;> simp

@[grind .] theorem failsIn_hasPercent (v : Value) : FailsIn IsInput v.hasPercent := by
  fun_cases hasPercent v <;> simp

@[grind .] theorem failsIn_blankWords (v : Value) : FailsIn IsInput v.blankWords := by
  fun_cases blankWords v <;> simp

end Value

namespace Spec

variable (spec : Spec) (ctx : Context)

theorem failsIn_inner : FailsIn IsInput (spec.inner ctx) := by
  have hpath (device : Value) (number : String) : FailsIn IsInput (DevicePath.partition device number) := by
    fun_cases DevicePath.partition device number <;> simp
  fun_cases inner spec ctx <;> simp [hpath]

theorem failsIn_enter : FailsIn IsInput (spec.enter ctx) :=
  .bind (spec.failsIn_inner ctx) fun _ => .bind (Value.failsIn_requireWritable _) fun _ => .ok _

@[grind .] theorem failsIn_subvolumeMountpoint (name : Value) (mountpoint : Option String) :
    FailsIn IsInput (subvolumeMountpoint name mountpoint ctx) := by
  fun_cases subvolumeMountpoint name mountpoint ctx <;> grind

theorem failsIn_mounting : FailsIn IsInput (spec.mounting ctx) := by
  fun_cases mounting spec ctx <;> grind

theorem failsIn_factsBefore : FailsIn IsInput (spec.factsBefore ctx) := by
  fun_cases factsBefore spec ctx <;> grind

theorem failsIn_tools : FailsIn IsInput spec.tools := by
  fun_cases tools spec <;> simp

theorem failsIn_actions (devices : List String) : FailsIn IsInput (spec.actions ctx devices) := by
  fun_cases actions spec ctx devices <;> grind

theorem failsIn_prepare (bare : Bool) : FailsIn IsInput (spec.prepare ctx bare).outcome := by
  unfold prepare
  split
  · rename_i group name _
    refine .outcome_bind (.outcome_bind ?_ fun _ => .ok _) fun _ => .ok _
    change FailsIn IsInput (Recording.record _).outcome
    refine .outcome_bind (Value.failsIn_requireWritable _) fun _ => .outcome_bind (.ok _) fun _ => ?_
    split <;> simp
  · rename_i group name _ _
    refine .outcome_bind ?_ fun devices => .outcome_bind (Value.failsIn_requireWritable _) fun _ => ?_
    · change FailsIn IsInput (Recording.collect _ _ _).outcome
      unfold Recording.collect
      split
      · simp
      · dsimp only
        split
        · exact .outcome_bind (Value.failsIn_requireWritable _) fun _ => .ok _
        · exact .ok _
    · exact .outcome_bind (.outcome_mapM fun d _ => d.failsIn_asText) fun _ => .outcome_bind (.ok _) fun _ => .ok _
  · split
    · exact .outcome_bind (Value.failsIn_requireWritable _) fun _ => .ok _
    · exact .ok _

theorem failsIn_create (bare : Bool) : FailsIn IsInput (spec.create ctx bare).outcome := by
  refine .outcome_bind (spec.failsIn_prepare ctx bare) fun devices => ?_
  refine .outcome_bind (spec.failsIn_actions ctx devices) fun actions => ?_
  exact .outcome_bind (Value.failsIn_requireWritable _) fun _ => .outcome_forM fun _ _ => .ok ()

end Spec

namespace Node

mutual

theorem failsIn_create : ∀ (n : Node) (ctx : Context), FailsIn IsInput (n.create ctx).outcome
  | ⟨key, spec, hooks, children⟩, ctx => by
    rw [create]
    have hend : FailsIn IsInput (do
        Creation.step (.hook hooks.postCreate)
        Value.requireWritable [spec.label]
        Creation.log (logDebug ("Built creation commands for " ++ Step.title spec.kind spec.label))).outcome :=
      .outcome_bind (.ok _) fun _ => .outcome_bind (Value.failsIn_requireWritable _) fun _ => .ok _
    refine .outcome_bind (.ok _) fun _ => .outcome_bind (.ok _) fun _ =>
      .outcome_bind (spec.failsIn_create ctx _) fun _ => ?_
    dsimp only
    split
    · exact .outcome_bind (spec.failsIn_enter ctx) fun inner =>
        .outcome_bind (failsIn_createAll children inner) fun _ => hend
    · exact hend

theorem failsIn_createAll : ∀ (ns : List Node) (ctx : Context), FailsIn IsInput (createAll ns ctx).outcome
  | [], _ => .ok ()
  | n :: ns, ctx => by
    rw [createAll]
    exact .outcome_bind (failsIn_create n ctx) fun _ => failsIn_createAll ns ctx

end

mutual

theorem failsIn_mount : ∀ (n : Node) (ctx : Context), FailsIn IsInput (n.mount ctx).outcome
  | ⟨key, spec, hooks, children⟩, ctx => by
    rw [mount]
    have hown (below : MountFragment) : FailsIn IsInput (do
        let own ← spec.mounting ctx
        Value.requireWritable (spec.mountWritten ctx own.isSome)
        return ⟨[.hook hooks.preMount] ++ (spec.activation ctx).map .run ++ below.activation ++ [.hook hooks.postMount],
          match own with
          | some (path, m) => below.mounts.put path m
          | none => below.mounts⟩ : Logged MountFragment).outcome :=
      .outcome_bind (spec.failsIn_mounting ctx) fun _ => .outcome_bind (Value.failsIn_requireWritable _) fun _ => .ok _
    split
    · refine .outcome_bind (spec.failsIn_enter ctx) fun inner => ?_
      exact .outcome_bind (failsIn_mountAll children inner _) fun below => hown below
    · exact .outcome_bind (.ok _) fun below => hown below

theorem failsIn_mountAll : ∀ (ns : List Node) (ctx : Context) (acc : MountFragment),
    FailsIn IsInput (mountAll ns ctx acc).outcome
  | [], _, acc => .ok acc
  | n :: ns, ctx, acc => by
    rw [mountAll]
    exact .outcome_bind (failsIn_mount n ctx) fun f => .outcome_bind (Fragment.outcome_add acc f ▸ .ok _) fun acc =>
      failsIn_mountAll ns ctx acc

end

mutual

theorem failsIn_facts : ∀ (n : Node) (ctx : Context), FailsIn IsInput (n.facts ctx)
  | ⟨key, spec, hooks, children⟩, ctx => by
    rw [facts]
    refine .bind (spec.failsIn_factsBefore ctx) fun before => .bind (Value.failsIn_requireWritable _) fun _ => ?_
    have hend (below : List Fact) : FailsIn IsInput (do
        Value.requireWritable spec.factsAfterWritten
        return before ++ below ++ spec.factsAfter ctx) := .bind (Value.failsIn_requireWritable _) fun _ => .ok _
    dsimp only
    split
    · exact .bind (spec.failsIn_enter ctx) fun inner => .bind (failsIn_factsAll children inner) fun below => hend below
    · exact hend []

theorem failsIn_factsAll : ∀ (ns : List Node) (ctx : Context), FailsIn IsInput (factsAll ns ctx)
  | [], _ => .ok []
  | n :: ns, ctx => by
    rw [factsAll]
    exact .bind (failsIn_facts n ctx) fun _ => .bind (failsIn_factsAll ns ctx) fun _ => .ok _

end

theorem failsIn_checkArrayPath (n : Node) : FailsIn IsInput n.checkArrayPath := by
  fun_cases checkArrayPath n
  · exact Value.failsIn_requireWritable _
  · exact .ok ()

mutual

theorem failsIn_tools : ∀ n : Node, FailsIn IsInput n.tools
  | ⟨key, spec, hooks, children⟩ => by
    rw [tools]
    refine .bind spec.failsIn_tools fun _ => .bind (failsIn_checkArrayPath _) fun _ => ?_
    exact .bind (failsIn_toolsAll children) fun _ => .ok _

theorem failsIn_toolsAll (ns : List Node) : FailsIn IsInput (toolsAll ns) := by
  cases ns with
  | nil => exact .ok []
  | cons n ns =>
    rw [toolsAll]
    exact .bind (failsIn_tools n) fun _ => .bind (failsIn_toolsAll ns) fun _ => .ok _

end

theorem failsIn_metadata (n : Node) (parent : Option DeviceRef) : FailsIn IsInput (n.metadata parent) := by
  refine .bind (failsIn_checkArrayPath n) fun _ => .bind (.mapM fun m _ => ?_) fun _ => .ok _
  unfold Metadata.dependency
  split <;> simp

end Node

namespace Layout

variable (l : Layout) (root : String) (order : List DeviceRef)

theorem failsIn_metadata : FailsIn IsInput l.metadata :=
  .bind (.mapM fun d _ => d.node.failsIn_metadata _) fun _ => .ok _

theorem failsIn_order (metadata : Value.Entries) : FailsIn IsInput (l.order metadata).outcome :=
  .outcome_bind (FailsIn.mapError_iff.2 fun _ _ => by simp) fun _ => .outcome_bind (.ok _) fun _ => .ok _

theorem failsIn_createDevices : ∀ (ds : List Device) (members : List Recording),
    FailsIn IsInput (createDevices root ds members).outcome
  | [], _ => .ok ()
  | d :: ds, members => by
    rw [createDevices]
    exact .outcome_bind (.ok _) fun _ => .outcome_bind (d.node.failsIn_create _) fun _ => failsIn_createDevices ds _

theorem failsIn_createScript : FailsIn IsInput (l.createScript root order).outcome :=
  .outcome_bind (FailsIn.exceptMap_iff.2 (failsIn_createDevices root _ _)) fun _ => .ok _

theorem failsIn_mountDevices : ∀ (ds : List Device) (acc : MountFragment), FailsIn IsInput (mountDevices root ds acc).outcome
  | [], acc => .ok acc
  | d :: ds, acc => by
    rw [mountDevices]
    exact .outcome_bind (d.node.failsIn_mount _) fun f => .outcome_bind (Fragment.outcome_add acc f ▸ .ok _) fun acc =>
      failsIn_mountDevices ds acc

theorem failsIn_mountScript : FailsIn IsInput (l.mountScript root order).outcome :=
  .outcome_bind (failsIn_mountDevices root _ _) fun _ => .ok _

theorem failsIn_facts : FailsIn IsInput l.facts := .bind (.mapM fun d _ => d.node.failsIn_facts _) fun _ => .ok _

theorem failsIn_tools : FailsIn IsInput l.tools := .bind (.mapM fun d _ => d.node.failsIn_tools) fun _ => .ok _

end Layout

/-- **Compiling fails only for what the layout says.** -/
theorem failsIn_compile (tree : Value) (root : String) : FailsIn IsInput (compile tree root).outcome := by
  refine .outcome_bind (Layout.failsIn_read tree) fun l => .outcome_bind l.failsIn_metadata fun metadata => ?_
  refine .outcome_bind (l.failsIn_order metadata) fun order => .outcome_bind (.ok _) fun _ => ?_
  refine .outcome_bind (l.failsIn_createScript root order) fun _ =>
    .outcome_bind (l.failsIn_mountScript root order) fun _ => ?_
  exact .outcome_bind l.failsIn_facts fun _ => .outcome_bind l.failsIn_tools fun _ => .outcome_bind (.ok _) fun _ => .ok _

/-! ## The target system -/

namespace HostConfig

theorem failsIn_ofFacts (facts : List Fact) : FailsIn IsInput (ofFacts facts) := by
  refine .foldlM (fun c f _ => ?_) _
  fun_cases add c f <;> simp

theorem failsIn_fileSystemLine (e : Value × FileSystem) : FailsIn IsInput (fileSystemLine e) := by
  have hpass : FailsIn IsInput (passNumber e.1 e.2.fsType) := by
    fun_cases passNumber e.1 e.2.fsType <;> simp
  have hoptions : FailsIn IsInput (optionsField e.2.options) := by
    refine .bind (.mapM fun v _ => ?_) fun _ => .ok _
    split <;> simp
  exact .bind hoptions fun _ => .bind (Value.failsIn_requireWritable _) fun _ => .bind hpass fun _ => .ok _

theorem failsIn_fstab (c : HostConfig) : FailsIn IsInput c.fstab.outcome := by
  have hsorted : FailsIn IsInput c.sortedFileSystems := by
    unfold sortedFileSystems
    split <;> simp
  have hswap (s : SwapDevice) : FailsIn IsInput (do
      Value.requireWritable [s.device]
      if s.randomEncryption.isGiven then
        logWarning ("Swap device " ++ s.device.toText ++
          " uses random encryption, which needs a crypttab entry managed by the host")
      pure (swapLine s) : Logged String).outcome := by
    refine .outcome_bind (Value.failsIn_requireWritable _) fun _ => ?_
    dsimp only
    split <;> exact .ok _
  refine .outcome_bind hsorted fun sorted => .outcome_bind (.mapM fun e _ => failsIn_fileSystemLine e) fun _ => ?_
  exact .outcome_bind (.outcome_mapM fun s _ => hswap s) fun _ => .ok _

theorem failsIn_crypttab (c : HostConfig) : FailsIn IsInput c.crypttab :=
  .bind (.mapM fun _ _ => .bind (Value.failsIn_requireWritable _) fun _ => .ok _) fun _ => .ok _

end HostConfig

namespace Json

theorem failsIn_keyText (v : Value) : FailsIn IsInput (keyText v) := by
  fun_cases keyText v <;> grind

mutual

theorem failsIn_renderAt : ∀ (v : Value) (depth : Nat), FailsIn IsInput (renderAt depth v)
  | .list xs, depth => by
    rw [renderAt, FailsIn.map_iff]
    exact failsIn_renderItems xs _
  | .pair k v, depth => by
    rw [renderAt]
    exact .bind (failsIn_renderAt k _) fun _ => .bind (failsIn_renderAt v _) fun _ => .ok _
  | .map es, depth => by
    rw [renderAt, FailsIn.map_iff]
    exact failsIn_renderMembers es _
  | .int n, depth => by
    rw [renderAt]
    exact .bind (Value.failsIn_requireWritable _) fun _ => .ok _
  | .null, _ | .bool _, _ | .float _, _ | .text _, _ | .date _, _ | .timestamp _, _ | .bytes _, _ | .set _, _ => by
    simp [renderAt]

theorem failsIn_renderItems : ∀ (xs : List Value) (depth : Nat), FailsIn IsInput (renderItems depth xs)
  | [], _ => .ok []
  | x :: xs, depth => by
    rw [renderItems]
    exact .bind (failsIn_renderAt x _) fun _ => .bind (failsIn_renderItems xs _) fun _ => .ok _

theorem failsIn_renderMembers : ∀ (es : List (Value × Value)) (depth : Nat), FailsIn IsInput (renderMembers depth es)
  | [], _ => .ok []
  | (k, v) :: es, depth => by
    rw [renderMembers]
    refine .bind (failsIn_keyText k) fun _ => .bind (failsIn_renderAt v _) fun _ => ?_
    exact .bind (failsIn_renderMembers es _) fun _ => .ok _

end

theorem failsIn_render (v : Value) : FailsIn IsInput (render v) := failsIn_renderAt v 0

end Json

end Provision
