import Provision.Proofs.Creation.Known
import Provision.Proofs.Mount.Facts
import Provision.Proofs.Order.Placement
/-!
# One device in all walks

The creation, the mount and the configuration walk meet the same nodes in the same contexts: what the three make is made from
one list of visits.  A filesystem, a subvolume, a swap device or a container is formatted, mounted or opened, and reported on
the device of its visit (`Visit.OnOneDevice`), so all three name the same device (`device_same_in_all_walks`).
-/
namespace Provision

open Value (entry node)

namespace Activation

def device? : Activation → Option Value
  | unlock device .. => some device
  | _ => none

end Activation

namespace Mounting

def device : Mounting → Value
  | filesystem source .. => source
  | swap device => .text device

end Mounting

namespace Fact

def device? : Fact → Option Value
  | filesystem _ device .. | swap device _ | unlock _ device _ => some device
  | kernelModule _ => none

end Fact

/-- The kinds of nodes that are made on the device that they are placed on, and mounted or opened from it. -/
def Kind.onDevice : List Kind := [.filesystem, .btrfs, .subvolume, .swap, .luks]

namespace Visit

/-- **A node that has one device in all walks**: every command that makes it works on the device of its visit, and whatever
opens it, mounts it or reports it to the host names that device. -/
structure OnOneDevice (v : Visit) : Prop where
  made : v.commands ≠ []
  commands : ∀ a ∈ v.commands, a.operands = [v.ctx.device]
  activations : ∀ a ∈ v.activations, a.device? = some v.ctx.device
  entered : ∀ path m, v.entered? = some (path, m) → m.device = v.ctx.device
  facts : ∀ fact ∈ v.facts, fact.device? = some v.ctx.device

theorem mounting_withMembers (ms : List Recording) (v : Visit) :
    (v.withMembers ms).node.spec.mounting (v.withMembers ms).ctx = v.node.spec.mounting v.ctx := by
  obtain ⟨⟨key, spec, hooks, children⟩, ctx⟩ := v
  cases spec <;> rfl

theorem activations_withMembers (ms : List Recording) (v : Visit) : (v.withMembers ms).activations = v.activations := by
  obtain ⟨⟨key, spec, hooks, children⟩, ctx⟩ := v
  cases spec <;> rfl

theorem entered?_withMembers (ms : List Recording) (v : Visit) : (v.withMembers ms).entered? = v.entered? := by
  rw [entered?, entered?, mounting_withMembers]

theorem factsBefore_withMembers (ms : List Recording) (v : Visit) : (v.withMembers ms).factsBefore = v.factsBefore := by
  rw [factsBefore, factsBefore, ← Spec.factsBefore_congr v.node.spec v.ctx v.ctx.root ms]
  rfl

theorem facts_withMembers (ms : List Recording) (v : Visit) : (v.withMembers ms).facts = v.facts := by
  rw [facts, facts, factsBefore_withMembers, ← Spec.factsAfter_congr v.node.spec v.ctx v.ctx.root ms]
  rfl

end Visit

namespace Spec

variable {spec : Spec} {ctx : Context}

theorem operands_onDevice {devices : List String} {as : List Action} (hk : spec.kind ∈ Kind.onDevice)
    (h : spec.actions ctx devices = .ok as) : as ≠ [] ∧ ∀ a ∈ as, a.operands = [ctx.device] := by
  cases spec
  case subvolume =>
    obtain ⟨path, -, h⟩ := except_bind_eq_ok_iff.1 h
    cases h
    simp [Action.operands]
  case filesystem | btrfs | swap | luks =>
    cases h
    simp [Action.operands]
  all_goals simp [Kind.onDevice, kind] at hk

theorem activation_onDevice (hk : spec.kind ∈ Kind.onDevice) : ∀ a ∈ spec.activation ctx, a.device? = some ctx.device := by
  cases spec
  case filesystem | btrfs | subvolume | swap | luks => simp [activation, Activation.device?]
  all_goals simp [Kind.onDevice, kind] at hk

theorem mounting_onDevice (hk : spec.kind ∈ Kind.onDevice) {path : String} {m : Mounting}
    (h : spec.mounting ctx = .ok (some (path, m))) : m.device = ctx.device := by
  cases spec
  case filesystem =>
    cases h
    rfl
  case btrfs =>
    obtain ⟨_, -, h⟩ := Option.map_eq_some_iff.1 (Except.ok.inj h)
    cases h
    rfl
  case subvolume =>
    obtain ⟨_, -, h⟩ := except_bind_eq_ok_iff.1 h
    obtain ⟨_, -, h⟩ := Option.map_eq_some_iff.1 (Except.ok.inj h)
    cases h
    rfl
  case swap =>
    obtain ⟨device, hdevice, h⟩ := except_bind_eq_ok_iff.1 h
    cases h
    exact (Value.eq_text_of_asText hdevice).symm
  case luks => cases h
  all_goals simp [Kind.onDevice, kind] at hk

theorem factsBefore_onDevice (hk : spec.kind ∈ Kind.onDevice) {before : List Fact} (h : spec.factsBefore ctx = .ok before) :
    ∀ fact ∈ before ++ spec.factsAfter ctx, fact.device? = some ctx.device := by
  cases spec
  case subvolume =>
    obtain ⟨m, -, h⟩ := except_bind_eq_ok_iff.1 h
    cases h
    cases m <;> simp [factsAfter, Fact.device?]
  case btrfs extraArgs mountOptions mountpoint =>
    cases h
    cases mountpoint <;> simp [factsAfter, Fact.device?]
  case filesystem | swap | luks =>
    cases h
    simp [factsAfter, Fact.device?]
  all_goals simp [Kind.onDevice, kind] at hk

end Spec

/-- **What a node is made on, opened or mounted from and reported with is the device of its visit.** -/
theorem Visit.onOneDevice {v : Visit} (hk : v.node.spec.kind ∈ Kind.onDevice) (hown : v.own.outcome = .ok ())
    (hmounting : v.node.spec.mounting v.ctx = .ok v.entered?) (hfacts : v.node.spec.factsBefore v.ctx = .ok v.factsBefore) :
    v.OnOneDevice := by
  obtain ⟨-, devices, hactions, -⟩ := own_ok hown
  obtain ⟨hmade, hcommands⟩ := Spec.operands_onDevice hk hactions
  exact ⟨hmade, hcommands, Spec.activation_onDevice hk,
    fun path m he => Spec.mounting_onDevice hk (hmounting.trans (congrArg Except.ok he)),
    Spec.factsBefore_onDevice hk hfacts⟩

namespace Layout

/-- The nodes of devices as their creation meets them: each device sees the members that those before it recorded. -/
def creationVisits (root : String) : List Device → List Recording → List Visit
  | [], _ => []
  | d :: ds, ms => d.visits root ms ++ creationVisits root ds (ms ++ d.recordings root)

theorem commandsFrom_eq_flatMap (root : String) : ∀ (ds : List Device) (ms : List Recording),
    commandsFrom root ds ms = (creationVisits root ds ms).flatMap Visit.commands
  | [], _ => rfl
  | d :: ds, ms => by
    rw [commandsFrom, creationVisits, List.flatMap_append, commandsFrom_eq_flatMap root ds]
    rfl

/-- The creation meets the same nodes in the same contexts as the other walks, members apart. -/
theorem map_withMembers_creationVisits (root : String) : ∀ (ds : List Device) (ms : List Recording),
    (creationVisits root ds ms).map (Visit.withMembers []) = ds.flatMap (·.visits root [])
  | [], _ => rfl
  | d :: ds, ms => by
    rw [creationVisits, List.map_append, map_withMembers_creationVisits root ds, List.flatMap_cons]
    exact congrArg (· ++ _) (Node.visits_with_members d.node (d.context root ms) []).symm

theorem own_of_mem_creationVisits {root : String} : ∀ {ds : List Device} {ms : List Recording},
    (createDevices root ds ms).outcome = .ok () → ∀ v ∈ creationVisits root ds ms, v.own.outcome = .ok ()
  | d :: ds, ms, h, v, hv => by
    obtain ⟨hwalk, hrest, -⟩ := createDevices_cons_ok h
    rcases List.mem_append.1 hv with hv | hv
    · exact (Device.walk_ok hwalk).2.2 v hv
    · exact own_of_mem_creationVisits hrest v hv

theorem flatMap_creationVisits {α : Type} {g : Visit → List α} (hg : ∀ ms v, g (v.withMembers ms) = g v) (root : String)
    (ds : List Device) (ms : List Recording) :
    (creationVisits root ds ms).flatMap g = ds.flatMap (fun d => (d.visits root []).flatMap g) := by
  rw [← List.flatMap_assoc, ← map_withMembers_creationVisits root ds ms, List.flatMap_map]
  simp only [hg]

theorem perm_mountings (root : String) (ds : List Device) (ms : List Recording) :
    (ds.flatMap (·.mountings root)).Perm ((creationVisits root ds ms).filterMap Visit.entered?) := by
  rw [List.filterMap_eq_flatMap_toList, flatMap_creationVisits (fun ms v => by rw [Visit.entered?_withMembers])]
  refine List.Perm.flatMap_left ds (fun d _ => ?_)
  rw [← List.filterMap_eq_flatMap_toList]
  exact (Node.visitsUp_perm _ _).filterMap _

end Layout

/-- **Every filesystem, subvolume, swap device and container has one device in all that is made from a layout.**  The
commands of the creation script, the activations and the mounts of the mount script and the facts are all made from the
same visits of nodes; and wherever a visit of such a node makes, opens, mounts or reports it, the device is that of the
visit. -/
theorem device_same_in_all_walks {tree : Value} {root : String} {c : Compiled} (h : (compile tree root).outcome = .ok c) :
    ∃ (l : Layout) (f : MountFragment) (vs : List Visit),
    (Layout.read tree).outcome = .ok l ∧ (l.inOrder c.order).Perm l.devices ∧
      vs.map (Visit.withMembers []) = (l.inOrder c.order).flatMap (·.visits root []) ∧
      c.createScript = Layout.createPreamble ++ creationText (Creation.steps (l.creation root c.order).record) ∧
      Creation.commands (l.creation root c.order).record = vs.flatMap Visit.commands ∧
      (l.mountFragment root c.order).outcome = .ok f ∧ c.mountScript = Layout.mountText f ∧
      Step.commands f.activation = vs.flatMap Visit.activations ∧
      (∃ es, es.Perm (vs.filterMap Visit.entered?) ∧ f.mounts.HoldsLast es) ∧
      c.facts.Perm (vs.flatMap Visit.facts) ∧
      ∀ v ∈ vs, v.node.spec.kind ∈ Kind.onDevice → v.OnOneDevice := by
  obtain ⟨l, hl, -, hs, hcreation, hcreate⟩ := compile_ok h
  have hwell := Layout.wellFormed_of_read hl
  have hperm := hwell.perm_inOrder (Order.perm_of_sort hwell.nodup (Requirement.sort_eq_ok hs))
  obtain ⟨f, hf, hmount, hfacts⟩ := compile_mounts h hl
  obtain ⟨hactivation, hmounts, hmounting⟩ := Layout.mountFragment_ok hf
  obtain ⟨hreported, -, hbefore⟩ := Layout.facts_ok hwell hfacts root
  refine ⟨l, f, Layout.creationVisits root (l.inOrder c.order) [], hl, hperm, Layout.map_withMembers_creationVisits ..,
    hcreate, ?_, hf, hmount, ?_, ⟨_, Layout.perm_mountings root _ [], hmounts⟩, ?_, fun v hv hk => ?_⟩
  · rw [Layout.commands_creation hcreation, Layout.commandsFrom_eq_flatMap]
  · rw [hactivation, Layout.flatMap_creationVisits Visit.activations_withMembers]
  · rw [Layout.flatMap_creationVisits Visit.facts_withMembers]
    exact hreported.trans (hperm.flatMap_right _).symm
  · have hvisit : v.withMembers [] ∈ (l.inOrder c.order).flatMap (·.visits root []) := by
      rw [← Layout.map_withMembers_creationVisits root (l.inOrder c.order) []]
      exact List.mem_map_of_mem hv
    obtain ⟨d, hd, hvisit⟩ := List.mem_flatMap.1 hvisit
    refine Visit.onOneDevice hk (Layout.own_of_mem_creationVisits hcreation v hv) ?_ ?_
    · rw [← v.mounting_withMembers [], ← v.entered?_withMembers []]
      exact hmounting d hd _ hvisit
    · rw [← Spec.factsBefore_congr v.node.spec v.ctx v.ctx.root [], ← v.factsBefore_withMembers []]
      exact hbefore d (hperm.mem_iff.1 hd) (v.withMembers []) hvisit

/-- A btrfs filesystem in an encrypted partition, an encrypted swap volume in a group on an array, and a volume of a pool. -/
theorem device_same_in_all_walks_of_nested_volumes :
    let table (content : Value) : Value :=
      node "table" [entry "partitions" (.list [node "partition" [entry "content" content]])]
    let disk (device : String) (content : Value) : Value :=
      node "disk" [entry "device" (.text device), entry "content" content]
    let container (name : String) (content : Value) : Value :=
      node "luks" [entry "name" (.text name), entry "content" content]
    let volume (content : Value) : Value := node "lvm_lv" [entry "size" (.text "1G"), entry "content" content]
    let tree : Value := .map [
      entry "disk" (.map [
        entry "a" (disk "/dev/nvme0n1" (table (container "crypt" (node "btrfs" [entry "mountpoint" (.text "/"),
          entry "subvolumes" (.map [entry "home" (node "btrfs_subvol" [entry "mountpoint" (.text "/home")])])])))),
        entry "b" (disk "/dev/sdb" (table (node "mdraid" [entry "name" (.text "md")])))]),
      entry "mdadm" (.map [entry "md" (node "mdadm" [entry "content" (node "lvm_pv" [entry "vg" (.text "vg")])])]),
      entry "zpool" (.map [entry "tank" (node "zpool" [entry "datasets" (.map [entry "data" (node "zfs_dataset" [
        entry "zfs_type" (.text "volume"), entry "size" (.text "1G"),
        entry "content" (node "filesystem" [entry "format" (.text "ext4"), entry "mountpoint" (.text "/data")])])])])]),
      entry "lvm_vg" (.map [entry "vg" (node "lvm_vg" [entry "lvs" (.map [
        entry "member" (volume (node "zfs" [entry "pool" (.text "tank")])),
        entry "swap" (volume (container "swapped" (node "swap" [])))])])])]
    ∃ (c : Compiled) (l : Layout) (vs : List Visit), (compile tree "/mnt").outcome = .ok c ∧
      Creation.commands (l.creation "/mnt" c.order).record = vs.flatMap Visit.commands ∧
      c.facts.Perm (vs.flatMap Visit.facts) ∧
      (vs.filter (fun v => v.node.spec.kind ∈ Kind.onDevice)).map (fun v => (v.node.spec.kind, v.ctx.device.toText)) =
        [(.luks, "/dev/nvme0n1p1"), (.btrfs, "/dev/mapper/crypt"), (.subvolume, "/dev/mapper/crypt"),
          (.luks, "/dev/vg/swap"), (.swap, "/dev/mapper/swapped"), (.filesystem, "/dev/zvol/tank/data")] ∧
      ∀ v ∈ vs, v.node.spec.kind ∈ Kind.onDevice → v.OnOneDevice := by
  intro table disk container volume tree
  have hchecked : (compile tree "/mnt").outcome.toOption.bind (fun c => (Layout.read tree).outcome.toOption.map (fun l =>
      (((l.inOrder c.order).flatMap (·.visits "/mnt" [])).filter (fun v => v.node.spec.kind ∈ Kind.onDevice)).map
        (fun v => (v.node.spec.kind, v.ctx.device.toText)))) =
      some [(.luks, "/dev/nvme0n1p1"), (.btrfs, "/dev/mapper/crypt"), (.subvolume, "/dev/mapper/crypt"),
        (.luks, "/dev/vg/swap"), (.swap, "/dev/mapper/swapped"), (.filesystem, "/dev/zvol/tank/data")] := by decide +kernel
  obtain ⟨c, hc, hchecked⟩ := Option.bind_eq_some_iff.1 hchecked
  obtain ⟨l, hl, hdevices⟩ := Option.map_eq_some_iff.1 hchecked
  replace hc := eq_ok_of_toOption hc
  obtain ⟨l', f, vs, hl', -, hvisits, -, hcommands, -, -, -, -, hfacts, hall⟩ := device_same_in_all_walks hc
  cases (eq_ok_of_toOption hl).symm.trans hl'
  refine ⟨c, l, vs, hc, hcommands, hfacts, ?_, hall⟩
  rw [← hdevices, ← hvisits, List.filter_map, List.map_map]
  rfl

end Provision
