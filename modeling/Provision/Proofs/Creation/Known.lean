import Provision.Proofs.Creation.Devices
/-!
# Devices are known before they are used

A command works on block devices, its `operands`, and makes others appear, which it `exposes`.  Everything that is placed
on a device finds it there: it is the device of a disk, or the command of the node above exposed it.  An aggregate reads
only devices that were recorded, and what was recorded was known by then.  So every operand of a creation script is a disk
or was exposed by an earlier command (`operands_known`).
-/
namespace Provision

open Value (entry node)

namespace Action

/-- The block devices that a command works on. -/
def operands : Action → List Value
  | label device _ | addPartition device .. | setFlag device .. | format _ _ device | formatBtrfs device _
  | addSubvolume device .. | formatSwap device | addPhysicalVolume device | encrypt device .. | unlock device .. => [device]
  | createGroup _ devices | createPool _ _ _ _ devices | createArray _ _ _ devices => devices.map .text
  | settle | createVolume .. | createDataset .. => []

/-- The block devices that a command makes appear. -/
def exposes : Action → List Value
  | addPartition device index .. => ((DevicePath.partition device index.toText).toOption.map .text).toList
  | unlock _ name _ => [.text (DevicePath.mapper name.toText)]
  | createVolume group name .. => [.text (DevicePath.logicalVolume group.toText name.toText)]
  | createDataset path _ (some _) => [.text ("/dev/zvol/" ++ path)]
  | createArray path .. => [.text path]
  | _ => []

def knownAfter (known : List Value) (commands : List Action) : List Value := known ++ commands.flatMap exposes

theorem knownAfter_append (known : List Value) (as bs : List Action) :
    knownAfter known (as ++ bs) = knownAfter (knownAfter known as) bs := by
  simp [knownAfter]

theorem mem_knownAfter_of_mem {known : List Value} {p : Value} (h : p ∈ known) (as : List Action) :
    p ∈ knownAfter known as :=
  List.mem_append_left _ h

def DefinedBeforeUse (known : List Value) : List Action → Prop
  | [] => True
  | a :: as => (∀ p ∈ a.operands, p ∈ known) ∧ DefinedBeforeUse (knownAfter known [a]) as

namespace DefinedBeforeUse

theorem append : ∀ {known : List Value} {as bs : List Action}, DefinedBeforeUse known as →
    DefinedBeforeUse (knownAfter known as) bs → DefinedBeforeUse known (as ++ bs)
  | _, [], _, _, hb => by simpa [knownAfter] using hb
  | _, _ :: _, _, ha, hb => by
    refine ⟨ha.1, append ha.2 ?_⟩
    rw [← knownAfter_append]
    exact hb

/-- Commands whose operands are all known at once can run in any order. -/
theorem of_forall : ∀ {known : List Value} {as : List Action}, (∀ a ∈ as, ∀ p ∈ a.operands, p ∈ known) →
    DefinedBeforeUse known as
  | _, [], _ => trivial
  | _, a :: _, h =>
    ⟨h a List.mem_cons_self, of_forall (fun b hb p hp =>
      mem_knownAfter_of_mem (h b (List.mem_cons_of_mem _ hb) p hp) [a])⟩

/-- What an operand is: known from the start, or exposed by an earlier command. -/
theorem operand_known : ∀ {known : List Value} {before : List Action} {a : Action} {after : List Action},
    DefinedBeforeUse known (before ++ a :: after) → ∀ p ∈ a.operands, p ∈ knownAfter known before
  | _, [], _, _, h, p, hp => mem_knownAfter_of_mem (h.1 p hp) []
  | _, b :: before, _, _, h, p, hp => by
    have ih := operand_known h.2 p hp
    rw [← knownAfter_append] at ih
    exact ih

end DefinedBeforeUse

end Action

namespace Spec

/-- The device that must be there when a node is created. -/
def base? (spec : Spec) (ctx : Context) : Option Value :=
  match spec with
  | disk _ device => some device
  | table .. | partition .. | filesystem .. | btrfs .. | subvolume .. | swap .. | physicalVolume .. | poolMember ..
  | arrayMember .. | luks .. => some ctx.device
  | volumeGroup .. | logicalVolume .. | pool .. | dataset .. | array .. | nodev .. => none

theorem operands_of_actions {spec : Spec} {ctx : Context} {devices : List String} {as : List Action}
    (h : spec.actions ctx devices = .ok as) :
    ∀ a ∈ as, ∀ p ∈ a.operands, p ∈ spec.base? ctx ∨ spec.aggregate?.isSome ∧ p ∈ devices.map .text := by
  cases spec
  case partition =>
    cases h
    intro a ha p hp
    simp only [List.mem_append, List.mem_cons, List.not_mem_nil, or_false, List.mem_map] at ha
    obtain (((rfl | rfl) | ha) | ⟨flag, -, rfl⟩) | rfl := ha
    · exact .inl (List.mem_singleton.1 hp ▸ rfl)
    · cases hp
    · split at ha
      · cases List.mem_singleton.1 ha
        exact .inl (List.mem_singleton.1 hp ▸ rfl)
      · cases ha
    · exact .inl (List.mem_singleton.1 hp ▸ rfl)
    · cases hp
  case dataset name type options mountOptions mountpoint size =>
    cases type <;> cases h <;> simp [Action.operands]
  case subvolume | logicalVolume | pool =>
    obtain ⟨_, _, h⟩ := except_bind_eq_ok_iff.1 h
    cases h
    simp [Action.operands, base?, aggregate?]
  all_goals
    cases h
    simp [Action.operands, base?, aggregate?]

/-- What a node holds is placed on a device that was known before the node or that the node's own commands expose. -/
theorem base?_below {spec : Spec} {ctx inner : Context} {devices : List String} {as : List Action} {known : List Value}
    (hplaces : spec.places = true) (has : spec.actions ctx devices = .ok as) (hinner : spec.inner ctx = .ok inner)
    (hbase : ∀ p ∈ spec.base? ctx, p ∈ known) {c : Spec} (hc : spec.kind.holding.takes c.kind = true) :
    ∀ p ∈ c.base? inner, p ∈ Action.knownAfter known as := by
  have hplaced {p : Value} (h : p ∈ c.base? inner) : p = inner.device := by
    cases c
    case disk => cases spec <;> cases hc
    all_goals simp_all [base?]
  have hexposed {a : Action} (ha : a ∈ as) (h : inner.device ∈ a.exposes) : inner.device ∈ Action.knownAfter known as :=
    List.mem_append_right _ (List.mem_flatMap.2 ⟨a, ha, h⟩)
  intro p hp
  obtain rfl := hplaced hp
  cases spec
  case disk | table | btrfs =>
    cases hinner
    exact Action.mem_knownAfter_of_mem (hbase _ rfl) as
  case partition =>
    obtain ⟨path, hpath, h⟩ := except_bind_eq_ok_iff.1 hinner
    cases h
    cases has
    exact hexposed List.mem_cons_self (by simp [Action.exposes, hpath, Except.toOption])
  case logicalVolume =>
    obtain ⟨_, _, h⟩ := except_bind_eq_ok_iff.1 has
    cases h
    cases hinner
    exact hexposed List.mem_cons_self List.mem_cons_self
  case dataset name type options mountOptions mountpoint size =>
    cases hinner
    cases type
    · cases hplaces
    · cases has
      refine hexposed List.mem_cons_self ?_
      simp [Action.exposes, DevicePath.poolVolume, String.append_assoc]
  case array =>
    cases has
    cases hinner
    exact hexposed List.mem_cons_self List.mem_cons_self
  case luks =>
    cases has
    cases hinner
    exact hexposed (List.mem_cons_of_mem _ List.mem_cons_self) List.mem_cons_self
  -- these hold nodes that are placed on no device
  case volumeGroup | pool =>
    have hnone : c.base? inner = none := by cases c <;> first | rfl | cases hc
    rw [hnone] at hp
    cases hp
  all_goals cases hc

end Spec

namespace Visit

theorem device_of_recording? {v : Visit} {r : Recording} (h : v.recording? = some r) :
    r.device ∈ v.node.spec.base? v.ctx := by
  obtain ⟨⟨key, spec, hooks, children⟩, ctx⟩ := v
  cases spec <;> cases h <;> rfl

theorem definedBeforeUse_own {v : Visit} (hown : v.own.outcome = .ok ()) {known : List Value}
    (hbase : ∀ p ∈ v.node.spec.base? v.ctx, p ∈ known) (hmembers : ∀ r ∈ v.ctx.members, r.device ∈ known) :
    Action.DefinedBeforeUse known v.commands := by
  obtain ⟨-, devices, hactions, hdevices⟩ := own_ok hown
  refine .of_forall (fun a ha p hp => ?_)
  obtain hp | ⟨hsome, hp⟩ := Spec.operands_of_actions hactions a ha p hp
  · exact hbase p hp
  · obtain ⟨⟨group, name⟩, hg⟩ := Option.isSome_iff_exists.1 hsome
    rw [hdevices group name hg] at hp
    obtain ⟨r, hr, rfl⟩ := List.mem_map.1 hp
    exact hmembers r (List.mem_filter.1 hr).1

end Visit

namespace Node

mutual

/-- **Below a device that is known, only known devices are used, and only known devices are recorded.** -/
theorem definedBeforeUse_visits : ∀ (n : Node) (ctx : Context) (known : List Value), n.Fits →
    (∀ v ∈ n.visits ctx, v.own.outcome = .ok ()) → (∀ p ∈ n.spec.base? ctx, p ∈ known) →
    (∀ r ∈ ctx.members, r.device ∈ known) →
    Action.DefinedBeforeUse known ((n.visits ctx).flatMap Visit.commands) ∧
      ∀ v ∈ n.visits ctx, ∀ r ∈ v.recording?, r.device ∈ Action.knownAfter known ((n.visits ctx).flatMap Visit.commands)
  | ⟨key, spec, hooks, children⟩, ctx, known, ⟨hkinds, hfits⟩, hown, hbase, hmembers => by
    rw [visits_eq] at hown ⊢
    dsimp only at *
    have hself := hown _ List.mem_cons_self
    obtain ⟨-, devices, hactions, -⟩ := Visit.own_ok hself
    set as := (Visit.mk ⟨key, spec, hooks, children⟩ ctx).commands
    have hdefined := Visit.definedBeforeUse_own hself hbase hmembers
    have hrecorded {r : Recording} (as : List Action) (hr : r ∈ (Visit.mk ⟨key, spec, hooks, children⟩ ctx).recording?) :
        r.device ∈ Action.knownAfter known as :=
      Action.mem_knownAfter_of_mem (hbase _ (Visit.device_of_recording? hr)) as
    split
    · rename_i inner hhanded
      simp only [hhanded] at hown
      obtain ⟨hplaces, hinner⟩ := Spec.handed?_eq_some_iff.1 hhanded
      obtain ⟨hbelow, hrecordedBelow⟩ := definedBeforeUse_visitsAll children inner (Action.knownAfter known as) hfits
        (fun v hv => hown v (List.mem_cons_of_mem _ hv))
        (fun c hc p hp => Spec.base?_below hplaces hactions hinner hbase (hkinds c hc) p hp)
        (fun r hr => Action.mem_knownAfter_of_mem (hmembers r ((Spec.inner_keeps hinner).2.2 ▸ hr)) as)
      rw [List.flatMap_cons]
      refine ⟨hdefined.append hbelow, fun v hv r hr => ?_⟩
      rcases List.mem_cons.1 hv with rfl | hv
      · exact hrecorded _ hr
      · rw [Action.knownAfter_append]
        exact hrecordedBelow v hv r hr
    · simp only [List.flatMap_cons, List.flatMap_nil, List.append_nil, List.mem_singleton]
      exact ⟨hdefined, fun v hv r hr => by subst hv; exact hrecorded _ hr⟩

theorem definedBeforeUse_visitsAll : ∀ (ns : List Node) (ctx : Context) (known : List Value), (∀ n ∈ ns, n.Fits) →
    (∀ v ∈ visitsAll ns ctx, v.own.outcome = .ok ()) → (∀ n ∈ ns, ∀ p ∈ n.spec.base? ctx, p ∈ known) →
    (∀ r ∈ ctx.members, r.device ∈ known) →
    Action.DefinedBeforeUse known ((visitsAll ns ctx).flatMap Visit.commands) ∧
      ∀ v ∈ visitsAll ns ctx, ∀ r ∈ v.recording?,
        r.device ∈ Action.knownAfter known ((visitsAll ns ctx).flatMap Visit.commands)
  | [], _, _, _, _, _, _ => ⟨trivial, fun v hv => by cases hv⟩
  | n :: ns, ctx, known, hfits, hown, hbase, hmembers => by
    rw [visitsAll] at hown ⊢
    obtain ⟨hfirst, hrecordedFirst⟩ := definedBeforeUse_visits n ctx known (hfits n List.mem_cons_self)
      (fun v hv => hown v (List.mem_append_left _ hv)) (hbase n List.mem_cons_self) hmembers
    have hstill {p : Value} (hp : p ∈ known) := Action.mem_knownAfter_of_mem hp ((n.visits ctx).flatMap Visit.commands)
    obtain ⟨hrest, hrecordedRest⟩ := definedBeforeUse_visitsAll ns ctx
      (Action.knownAfter known ((n.visits ctx).flatMap Visit.commands)) (fun m hm => hfits m (List.mem_cons_of_mem _ hm))
      (fun v hv => hown v (List.mem_append_right _ hv))
      (fun m hm p hp => hstill (hbase m (List.mem_cons_of_mem _ hm) p hp)) (fun r hr => hstill (hmembers r hr))
    rw [List.flatMap_append, Action.knownAfter_append]
    refine ⟨hfirst.append hrest, fun v hv r hr => ?_⟩
    rcases List.mem_append.1 hv with hv | hv
    · exact Action.mem_knownAfter_of_mem (hrecordedFirst v hv r hr) _
    · exact hrecordedRest v hv r hr

end

end Node

namespace Layout

def diskDevices (l : Layout) : List Value :=
  l.devices.filterMap (fun d => match d.node.spec with
    | .disk _ device => some device
    | _ => none)

/-- A top-level device is placed on no other; what a disk works on is its own device. -/
theorem WellFormed.base?_mem_diskDevices {l : Layout} (hl : l.WellFormed) {d : Device} (hd : d ∈ l.devices) (ctx : Context) :
    ∀ p ∈ d.node.spec.base? ctx, p ∈ l.diskDevices := by
  intro p hp
  have hkind := hl.kind d hd
  cases hs : d.node.spec
  case disk name device =>
    rw [hs] at hp
    exact List.mem_filterMap.2 ⟨d, hd, by rw [hs]; exact hp⟩
  case volumeGroup | pool | array | nodev =>
    rw [hs] at hp
    cases hp
  all_goals
    rw [hs] at hkind
    cases hg : d.group <;> rw [hg] at hkind <;> cases hkind

theorem definedBeforeUse_createDevices {root : String} : ∀ {ds : List Device} {ms : List Recording} {known : List Value},
    (createDevices root ds ms).outcome = .ok () → (∀ d ∈ ds, d.node.Fits) →
    (∀ d ∈ ds, ∀ ctx, ∀ p ∈ d.node.spec.base? ctx, p ∈ known) → (∀ r ∈ ms, r.device ∈ known) →
    Action.DefinedBeforeUse known (commandsFrom root ds ms)
  | [], _, _, _, _, _, _ => trivial
  | d :: ds, ms, known, h, hfits, hbase, hmembers => by
    obtain ⟨hwalk, hrest, -⟩ := createDevices_cons_ok h
    obtain ⟨hfirst, hrecorded⟩ := Node.definedBeforeUse_visits d.node (d.context root ms) known
      (hfits d List.mem_cons_self) (Device.walk_ok hwalk).2.2 (hbase d List.mem_cons_self _) hmembers
    refine hfirst.append (definedBeforeUse_createDevices hrest (fun e he => hfits e (List.mem_cons_of_mem _ he))
      (fun e he ctx p hp => Action.mem_knownAfter_of_mem (hbase e (List.mem_cons_of_mem _ he) ctx p hp) _) (fun r hr => ?_))
    rcases List.mem_append.1 hr with hr | hr
    · exact Action.mem_knownAfter_of_mem (hmembers r hr) _
    · rw [← d.filterMap_recording?_visits root ms] at hr
      obtain ⟨v, hv, hr⟩ := List.mem_filterMap.1 hr
      exact hrecorded v hv r hr

end Layout

/-- **Every block device that a creation script works on is the device of a disk, or an earlier command of the script
exposed it.** -/
theorem operands_known {tree : Value} {root : String} {c : Compiled} (h : (compile tree root).outcome = .ok c) :
    ∃ l, (Layout.read tree).outcome = .ok l ∧
      c.createScript = Layout.createPreamble ++ creationText (Creation.steps (l.creation root c.order).record) ∧
      ∀ before a after, Creation.commands (l.creation root c.order).record = before ++ a :: after →
        ∀ p ∈ a.operands, (∃ d ∈ l.devices, ∃ name, d.node.spec = .disk name p) ∨ ∃ b ∈ before, p ∈ b.exposes := by
  obtain ⟨l, hl, -, -, hcreation, hscript⟩ := compile_ok h
  have hwell := Layout.wellFormed_of_read hl
  refine ⟨l, hl, hscript, fun before a after he p hp => ?_⟩
  have hdefined : Action.DefinedBeforeUse l.diskDevices (Creation.commands (l.creation root c.order).record) := by
    rw [Layout.commands_creation hcreation]
    exact Layout.definedBeforeUse_createDevices hcreation (fun d hd => hwell.fits d (Layout.mem_of_mem_inOrder hd))
      (fun d hd ctx => hwell.base?_mem_diskDevices (Layout.mem_of_mem_inOrder hd) ctx) (fun r hr => by cases hr)
  rw [he] at hdefined
  rcases List.mem_append.1 (hdefined.operand_known p hp) with hp | hp
  · obtain ⟨d, hd, hp⟩ := List.mem_filterMap.1 hp
    split at hp
    · rename_i name device hspec
      cases hp
      exact .inl ⟨d, hd, name, hspec⟩
    · cases hp
  · exact .inr (List.mem_flatMap.1 hp)

/-- An encrypted volume of a volume group on an array of two partitions. -/
theorem operands_known_of_encrypted_volume :
    let disk (device : String) : Value := node "disk" [entry "device" (.text device), entry "content" (node "table"
      [entry "partitions" (.list [node "partition" [entry "content" (node "mdraid" [entry "name" (.text "md")])]])])]
    let container : Value := node "luks" [entry "name" (.text "crypt"), entry "content" (node "swap" [])]
    let tree : Value := .map [
      entry "disk" (.map [entry "a" (disk "/dev/sda"), entry "b" (disk "/dev/sdb")]),
      entry "mdadm" (.map [entry "md" (node "mdadm" [entry "content" (node "lvm_pv" [entry "vg" (.text "vg")])])]),
      entry "lvm_vg" (.map [entry "vg" (node "lvm_vg" [entry "lvs"
        (.map [entry "root" (node "lvm_lv" [entry "size" (.text "1G"), entry "content" container])])])])]
    ∃ c, (compile tree "/mnt").outcome = .ok c ∧
      c.order = [⟨"disk", "a"⟩, ⟨"disk", "b"⟩, ⟨"mdadm", "md"⟩, ⟨"lvm_vg", "vg"⟩] ∧
      ∃ l, (Layout.read tree).outcome = .ok l ∧
        c.createScript = Layout.createPreamble ++ creationText (Creation.steps (l.creation "/mnt" c.order).record) ∧
        ∀ before a after, Creation.commands (l.creation "/mnt" c.order).record = before ++ a :: after →
          ∀ p ∈ a.operands, (∃ d ∈ l.devices, ∃ name, d.node.spec = .disk name p) ∨ ∃ b ∈ before, p ∈ b.exposes := by
  intro disk container tree
  have horder : (compile tree "/mnt").outcome.toOption.map (·.order) =
      some [⟨"disk", "a"⟩, ⟨"disk", "b"⟩, ⟨"mdadm", "md"⟩, ⟨"lvm_vg", "vg"⟩] := by decide +kernel
  obtain ⟨c, hc, hcorder⟩ := Option.map_eq_some_iff.1 horder
  have hc := eq_ok_of_toOption hc
  exact ⟨c, hc, hcorder, operands_known hc⟩

end Provision
