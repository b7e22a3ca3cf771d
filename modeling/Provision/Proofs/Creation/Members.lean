import Provision.Proofs.Creation.Devices
import Provision.Proofs.Metadata
import Provision.Proofs.Order.Placement
/-!
# What aggregates are made of

An aggregate is made of the devices that the members before it recorded under its name (`Layout.assembles`).  The order
puts a device before an aggregate when a member under it names the key of the aggregate (`Layout.WellFormed.precedes`).
Where the name is the key, the two agree: every member comes first, and none is missing (`members_complete`).  Elsewhere
they can differ (`feeding_iff_edge`).
-/
namespace Provision

open Value (entry node)

namespace Node

mutual

def subnodes : Node → List Node
  | ⟨key, spec, hooks, children⟩ => ⟨key, spec, hooks, children⟩ :: subnodesAll children

def subnodesAll : List Node → List Node
  | [] => []
  | n :: ns => subnodes n ++ subnodesAll ns

end

mutual

theorem memberships_eq_filterMap : ∀ n : Node, n.memberships = n.subnodes.filterMap (·.spec.membership?)
  | ⟨key, spec, hooks, children⟩ => by
    rw [memberships, subnodes, membershipsAll_eq_filterMap children, List.filterMap_cons]
    cases spec.membership? <;> rfl

theorem membershipsAll_eq_filterMap : ∀ ns : List Node, membershipsAll ns = (subnodesAll ns).filterMap (·.spec.membership?)
  | [] => rfl
  | n :: ns => by
    rw [membershipsAll, subnodesAll, List.filterMap_append, memberships_eq_filterMap n, membershipsAll_eq_filterMap ns]

end

mutual

theorem node_mem_subnodes : ∀ (n : Node) (ctx : Context), ∀ v ∈ n.visits ctx, v.node ∈ n.subnodes
  | ⟨key, spec, hooks, children⟩, ctx, v, hv => by
    rw [visits_eq] at hv
    rw [subnodes]
    rcases List.mem_cons.1 hv with rfl | hv
    · exact List.mem_cons_self
    · dsimp only at hv
      split at hv
      · exact List.mem_cons_of_mem _ (node_mem_subnodesAll children _ v hv)
      · cases hv

theorem node_mem_subnodesAll : ∀ (ns : List Node) (ctx : Context), ∀ v ∈ visitsAll ns ctx, v.node ∈ subnodesAll ns
  | [], _, _, hv => absurd hv List.not_mem_nil
  | n :: ns, ctx, v, hv => by
    rcases List.mem_append.1 hv with hv | hv
    · exact List.mem_append_left _ (node_mem_subnodes n ctx v hv)
    · exact List.mem_append_right _ (node_mem_subnodesAll ns ctx v hv)

end

mutual

/-- **A walk that succeeds meets every node**, unless one is under a dataset that is a filesystem. -/
theorem map_node_visits : ∀ (n : Node) (ctx : Context), (n.create ctx).outcome = .ok () →
    (∀ m ∈ n.subnodes, m.spec.places = false → m.children = []) → (n.visits ctx).map Visit.node = n.subnodes
  | ⟨key, spec, hooks, children⟩, ctx, h, hplaces => by
    obtain ⟨-, hbelow, -⟩ := create_ok h
    have hb := createBelow_ok hbelow
    rw [subnodes] at hplaces ⊢
    rw [visits_eq]
    dsimp only at hb ⊢
    split at hb
    · rw [List.map_cons, map_node_visitsAll children _ hb.1 (fun m hm => hplaces m (List.mem_cons_of_mem _ hm))]
    · have hnone : children = [] := by
        cases hp : spec.places with
        | true => exact hb.2 hp
        | false => exact hplaces _ List.mem_cons_self hp
      rw [hnone, subnodesAll]
      rfl

theorem map_node_visitsAll : ∀ (ns : List Node) (ctx : Context), (createAll ns ctx).outcome = .ok () →
    (∀ m ∈ subnodesAll ns, m.spec.places = false → m.children = []) → (visitsAll ns ctx).map Visit.node = subnodesAll ns
  | [], _, _, _ => rfl
  | n :: ns, ctx, h, hplaces => by
    rw [createAll] at h
    obtain ⟨_, hn, hns⟩ := Traced.outcome_bind_eq_ok_iff.1 h
    rw [visitsAll, subnodesAll, List.map_append,
      map_node_visits n ctx hn (fun m hm => hplaces m (List.mem_append_left _ hm)),
      map_node_visitsAll ns ctx hns (fun m hm => hplaces m (List.mem_append_right _ hm))]

end

end Node

theorem any_named_iff {x : Option (Group × Value)} {group : Group} {name : Value} :
    x.any (fun m => m.1 == group && Value.same name m.2) = true ↔
      ∃ ref, x = some (group, ref) ∧ Value.same name ref = true := by
  rw [Option.any_eq_true]
  constructor
  · rintro ⟨⟨g, ref⟩, hm, h⟩
    obtain ⟨hg, hs⟩ := Bool.and_eq_true_iff.1 h
    exact ⟨ref, (beq_iff_eq.1 hg) ▸ hm, hs⟩
  · rintro ⟨ref, hm, hs⟩
    exact ⟨_, hm, by simp [hs]⟩

theorem eq_some_of_any_named {x : Option (Group × Value)} {group : Group} {name : String}
    (h : x.any (fun m => m.1 == group && Value.same (.text name) m.2) = true) : x = some (group, .text name) := by
  obtain ⟨ref, hx, hs⟩ := any_named_iff.1 h
  rw [hx, Value.same_text_iff.1 hs]

namespace Visit

def feeds (v : Visit) (group : Group) (name : Value) : Bool :=
  v.node.spec.membership?.any (fun m => m.1 == group && Value.same name m.2)

theorem feeds_iff {v : Visit} {group : Group} {name : Value} :
    v.feeds group name = true ↔ ∃ ref, v.node.spec.membership? = some (group, ref) ∧ Value.same name ref = true :=
  any_named_iff

theorem mem_memberships {v : Visit} {n : Node} {ctx : Context} (hv : v ∈ n.visits ctx) {f : Group × Value}
    (hf : v.node.spec.membership? = some f) : f ∈ n.memberships := by
  rw [Node.memberships_eq_filterMap]
  exact List.mem_filterMap.2 ⟨v.node, Node.node_mem_subnodes n ctx v hv, hf⟩

theorem isFor_of_recording? {v : Visit} {r : Recording} (h : v.recording? = some r) (group : Group) (name : Value) :
    r.isFor group.name name = v.feeds group name ∧ r.device = v.ctx.device := by
  obtain ⟨m, hm, rfl⟩ := Option.map_eq_some_iff.1 h
  refine ⟨?_, rfl⟩
  rw [feeds, hm]
  simp only [Recording.isFor, Option.any_some]
  congr 1
  rw [Bool.eq_iff_iff, beq_iff_eq, beq_iff_eq]
  exact ⟨Group.name_injective, fun e => e ▸ rfl⟩

theorem devicesOf_filterMap_recording? (group : Group) (name : Value) : ∀ vs : List Visit,
    Recording.devicesOf (vs.filterMap recording?) group.name name = (vs.filter (·.feeds group name)).map (·.ctx.device)
  | [] => rfl
  | v :: vs => by
    have ih := devicesOf_filterMap_recording? group name vs
    cases hr : v.recording? with
    | none =>
      have hf : v.feeds group name = false := by
        rw [feeds, Option.map_eq_none_iff.1 hr]
        rfl
      rw [List.filterMap_cons_none hr, ih, List.filter_cons_of_neg (by simp [hf])]
    | some r =>
      obtain ⟨hf, hd⟩ := isFor_of_recording? hr group name
      rw [Recording.devicesOf] at ih ⊢
      rw [List.filterMap_cons_some hr, List.filter_cons, List.filter_cons, hf]
      split
      · rw [List.map_cons, List.map_cons, hd, ih]
      · exact ih

end Visit

def Spec.Assembles : Spec → Action → List String → Prop
  | volumeGroup name, .createGroup name' devices', devices => name' = name ∧ devices' = devices
  | pool name .., .createPool name' _ _ _ devices', devices => name' = name ∧ devices' = devices
  | array name .., .createArray path _ _ devices', devices => path = DevicePath.array name.toText ∧ devices' = devices
  | _, _, _ => False

theorem Spec.assembles_of_actions {spec : Spec} {ctx : Context} {devices : List String} {as : List Action}
    {aggregate : Group × Value} (h : spec.actions ctx devices = .ok as) (ha : spec.aggregate? = some aggregate) :
    ∃ a more, as = a :: more ∧ spec.Assembles a devices := by
  cases spec
  case volumeGroup | array =>
    cases h
    exact ⟨_, _, rfl, rfl, rfl⟩
  case pool =>
    obtain ⟨_, _, h⟩ := except_bind_eq_ok_iff.1 h
    cases h
    exact ⟨_, _, rfl, rfl, rfl⟩
  all_goals cases ha

/-- The command that makes an aggregate ends with its devices; that of an array says how many there are. -/
theorem Spec.Assembles.words {spec : Spec} {a : Action} {devices : List String} (h : spec.Assembles a devices) :
    devices <:+ a.words ∧ (spec.kind = .array → "--raid-devices=" ++ toString devices.length ∈ a.words) := by
  unfold Spec.Assembles at h
  split at h
  · obtain ⟨-, rfl⟩ := h
    exact ⟨List.suffix_append _ _, fun hk => by cases hk⟩
  · obtain ⟨-, rfl⟩ := h
    exact ⟨List.suffix_append _ _, fun hk => by cases hk⟩
  · obtain ⟨-, rfl⟩ := h
    exact ⟨List.suffix_append _ _, fun _ => by simp [Action.words]⟩
  · cases h

namespace Layout

/-- **What an aggregate is made of**: the devices of the members that name it, under the devices before it. -/
theorem assembles {l : Layout} {root : String} {order : List DeviceRef} (hc : (l.creation root order).outcome = .ok ())
    {before : List Device} {A : Device} {after : List Device} (ho : l.inOrder order = before ++ A :: after)
    {group : Group} {name : Value} (ha : A.node.spec.aggregate? = some (group, name)) :
    ∃ a more devices, A.commands root (before.flatMap (·.recordings root)) = a :: more ∧ A.node.spec.Assembles a devices ∧
      devices.map Value.text =
        ((before.flatMap (·.visits root [])).filter (·.feeds group name)).map (·.ctx.device) := by
  rw [creation, ho] at hc
  obtain ⟨hwalk, -, -⟩ := createDevices_cons_ok (createDevices_of_append hc)
  rw [List.nil_append] at hwalk
  set ms := before.flatMap (·.recordings root) with hms
  obtain ⟨below, hvisits⟩ : ∃ below, A.visits root ms = ⟨A.node, A.context root ms⟩ :: below := ⟨_, Node.visits_eq _ _⟩
  have hown := (Device.walk_ok hwalk).2.2 ⟨A.node, A.context root ms⟩ (hvisits ▸ List.mem_cons_self)
  obtain ⟨-, devices, hactions, hdevices⟩ := Visit.own_ok hown
  obtain ⟨a, more, hmore, hassembles⟩ := Spec.assembles_of_actions hactions ha
  refine ⟨a, more ++ below.flatMap Visit.commands, devices, ?_, hassembles, ?_⟩
  · rw [Device.commands, hvisits, List.flatMap_cons, hmore, List.cons_append]
  · have hrecorded : ms = (before.flatMap (·.visits root [])).filterMap Visit.recording? := by
      rw [hms, List.filterMap_flatMap]
      rfl
    rw [← Visit.devicesOf_filterMap_recording?, ← hrecorded]
    exact hdevices group name ha

/-- **A device comes before an aggregate** when a member under it names the key of the aggregate. -/
theorem WellFormed.precedes {l : Layout} (hl : l.WellFormed) {m : Value.Entries} (hm : l.metadata = .ok m)
    {order : List DeviceRef} (hs : Requirement.sort (Metadata.requirements m) l.refs = .ok order)
    {before : List Device} {A : Device} {after : List Device} (ho : l.inOrder order = before ++ A :: after)
    {P : Device} (hP : P ∈ l.devices) (hf : (A.group, .text A.node.key) ∈ P.node.memberships) : P ∈ before := by
  replace hs := Requirement.sort_eq_ok hs
  have hperm := Order.perm_of_sort hl.nodup hs
  have horder : order = before.map Device.ref ++ A.ref :: after.map Device.ref := by
    rw [← map_ref_inOrder hperm.subset, ho, List.map_append, List.map_cons]
  have hlisted {d : Device} (hd : d ∈ before ++ A :: after) : d ∈ l.devices := mem_of_mem_inOrder (ho ▸ hd)
  have hA : A ∈ l.devices := hlisted (List.mem_append_right _ List.mem_cons_self)
  have hedge : Edge.mk P.ref A.ref ∈ Order.between l.refs ((Metadata.requirements m).flatMap Requirement.edges) :=
    Order.mem_between.2
      ⟨(mem_edges_iff hm).2 ⟨P, hP, _, hf, rfl, rfl, rfl⟩, List.mem_map_of_mem hP, List.mem_map_of_mem hA⟩
  have hplaced := Order.respects_of_sort hl.nodup hs _ _ _ horder _ hedge rfl
  obtain ⟨Q, hQ, hr⟩ := List.mem_map.1 hplaced
  rwa [← List.inj_on_of_nodup_map hl.nodup (hlisted (List.mem_append_left _ hQ)) hP hr]

theorem WellFormed.group_of_aggregate? {l : Layout} (hl : l.WellFormed) {A : Device} (hA : A ∈ l.devices)
    {group : Group} {name : Value} (ha : A.node.spec.aggregate? = some (group, name)) : A.group = group := by
  have hkind := hl.kind A hA
  refine Group.name_injective (congrArg Kind.name (hkind.symm.trans ?_))
  cases hs : A.node.spec <;> rw [hs] at ha <;> cases ha <;> rfl

end Layout

/-- **An aggregate in the creation of a layout**: the devices before and after it, the command that makes it and those that
follow for it, and the devices that it is made of. -/
structure Layout.Assembly (l : Layout) (root : String) (order : List DeviceRef) (A : Device) (group : Group) (name : Value)
    (before after : List Device) (a : Action) (more : List Action) (devices : List String) : Prop where
  perm : (l.inOrder order).Perm l.devices
  inOrder_eq : l.inOrder order = before ++ A :: after
  commands_eq : A.commands root (before.flatMap (·.recordings root)) = a :: more
  assembles : A.node.spec.Assembles a devices
  devices_eq : devices.map Value.text =
    ((before.flatMap (·.visits root [])).filter (·.feeds group name)).map (·.ctx.device)
  group_eq : A.group = group
  precedes : ∀ {P : Device}, P ∈ l.devices → (group, .text A.node.key) ∈ P.node.memberships → P ∈ before

/-- **Every aggregate of a layout that is created is made**, from the members before it. -/
theorem Layout.WellFormed.exists_assembly {l : Layout} (hl : l.WellFormed) {m : Value.Entries} (hm : l.metadata = .ok m)
    {order : List DeviceRef} (hs : Requirement.sort (Metadata.requirements m) l.refs = .ok order) {root : String}
    (hc : (l.creation root order).outcome = .ok ()) {A : Device} (hA : A ∈ l.devices) {group : Group} {name : Value}
    (ha : A.node.spec.aggregate? = some (group, name)) :
    ∃ before after a more devices, l.Assembly root order A group name before after a more devices := by
  have hperm := hl.perm_inOrder (Order.perm_of_sort hl.nodup (Requirement.sort_eq_ok hs))
  obtain ⟨before, after, ho⟩ := List.append_of_mem (hperm.mem_iff.2 hA)
  obtain ⟨a, more, devices, hcommands, hassembles, hdevices⟩ := Layout.assembles hc ho ha
  have hgroup := hl.group_of_aggregate? hA ha
  exact ⟨before, after, a, more, devices, hperm, ho, hcommands, hassembles, hdevices, hgroup,
    fun hP hf => hl.precedes hm hs ho hP (hgroup ▸ hf)⟩

namespace Layout.Assembly

variable {l : Layout} {root : String} {order : List DeviceRef} {A : Device} {group : Group} {name : Value}
  {before after : List Device} {a : Action} {more : List Action} {devices : List String}

theorem mem_devices (h : l.Assembly root order A group name before after a more devices) {d : Device}
    (hd : d ∈ before ++ A :: after) : d ∈ l.devices :=
  h.perm.mem_iff.1 (h.inOrder_eq ▸ hd)

/-- The commands of a creation, around those of the aggregate. -/
theorem commands_creation (h : l.Assembly root order A group name before after a more devices)
    (hc : (l.creation root order).outcome = .ok ()) :
    Creation.commands (l.creation root order).record = Layout.commandsFrom root before [] ++ (a :: more) ++
      Layout.commandsFrom root after ((before ++ [A]).flatMap (·.recordings root)) := by
  rw [Layout.commands_creation hc, h.inOrder_eq, Layout.commandsFrom_append, Layout.commandsFrom, List.nil_append,
    h.commands_eq]
  simp

theorem filter_late (h : l.Assembly root order A group name before after a more devices) (hl : l.WellFormed) :
    ((A :: after).flatMap (·.visits root [])).filter (·.feeds group (.text A.node.key)) = [] := by
  refine List.filter_eq_nil_iff.2 (fun v hv hf => ?_)
  obtain ⟨d, hd, hv⟩ := List.mem_flatMap.1 hv
  obtain ⟨ref, hm, hs⟩ := Visit.feeds_iff.1 hf
  rw [Value.same_text_iff.1 hs] at hm
  have hbefore := h.precedes (h.mem_devices (List.mem_append_right _ hd)) (Visit.mem_memberships hv hm)
  have hnodup : (before ++ A :: after).Nodup := h.inOrder_eq ▸ h.perm.nodup_iff.2 (List.Nodup.of_map _ hl.nodup)
  exact (List.disjoint_of_nodup_append hnodup) hbefore hd

theorem mem_feeding_iff (h : l.Assembly root order A group name before after a more devices) (hl : l.WellFormed) {P : Device}
    (hP : P ∈ l.devices) {M : Visit} (hM : M ∈ P.visits root []) {ref : Value}
    (hm : M.node.spec.membership? = some (group, ref)) :
    M ∈ (before.flatMap (·.visits root [])).filter (·.feeds group name) ↔ P ∈ before ∧ Value.same name ref = true := by
  rw [List.mem_filter, Visit.feeds_iff, hm]
  constructor
  · rintro ⟨hv, _, ⟨⟩, hsame⟩
    obtain ⟨Q, hQ, hv⟩ := List.mem_flatMap.1 hv
    -- a visit names the device that it lies under
    have hparent : some Q.ref = some P.ref :=
      (Node.keeps_of_mem_visits _ _ M hv).1.symm.trans (Node.keeps_of_mem_visits _ _ M hM).1
    rw [← List.inj_on_of_nodup_map hl.nodup (h.mem_devices (List.mem_append_left _ hQ)) hP (Option.some.inj hparent)]
    exact ⟨hQ, hsame⟩
  · exact fun ⟨hb, hsame⟩ => ⟨List.mem_flatMap.2 ⟨P, hb, hM⟩, ref, rfl, hsame⟩

theorem edge_iff (h : l.Assembly root order A group name before after a more devices) {P : Device} (hP : P ∈ l.devices)
    {ref : Value} {fact : Value.Entries} (hfact : Metadata.dependency group.name ref P.ref.toValue = .ok fact) :
    Edge.mk P.ref A.ref ∈ Order.between l.refs ((Metadata.requirements fact).flatMap Requirement.edges) ↔
      ref = .text A.node.key := by
  obtain ⟨hshape, hstates⟩ := Metadata.states_dependency hfact
  rw [Order.mem_between, Metadata.mem_edges_iff hshape, hstates]
  refine ⟨fun e => e.1.2.1, fun e => ⟨⟨congrArg Group.name h.group_eq, e, rfl⟩, List.mem_map_of_mem hP, ?_⟩⟩
  exact List.mem_map_of_mem (h.mem_devices (List.mem_append_right _ List.mem_cons_self))

end Layout.Assembly

/-- **A walk that succeeds meets all nodes of a device**, unless one lies under a dataset that is a filesystem. -/
theorem Device.map_node_visits {d : Device} {root : String} {ms : List Recording}
    (h : (d.node.create (d.context root ms)).outcome = .ok ())
    (hplaces : ∀ n ∈ d.node.subnodes, n.spec.places = false → n.children = []) :
    (d.visits root []).map Visit.node = d.node.subnodes := by
  have hsame : (d.visits root ms).map Visit.node = (d.visits root []).map Visit.node := by
    rw [d.visits_with_members root ms, List.map_map]
    rfl
  exact hsame.symm.trans (Node.map_node_visits d.node _ h hplaces)

/-- **Members are complete and come first.**  Let an aggregate have its key for name, and let nothing lie under a dataset
that is a filesystem.  Then the command that makes the aggregate lists exactly the devices of the nodes of the layout that
name it, one for each, in the order of the devices and in each in tree order; and it comes after all commands of the devices
that hold such a node. -/
theorem members_complete {tree : Value} {root : String} {c : Compiled} (h : (compile tree root).outcome = .ok c) {l : Layout}
    (hl : (Layout.read tree).outcome = .ok l)
    (hplaces : ∀ d ∈ l.devices, ∀ n ∈ d.node.subnodes, n.spec.places = false → n.children = [])
    {A : Device} (hA : A ∈ l.devices) {group : Group} (ha : A.node.spec.aggregate? = some (group, .text A.node.key)) :
    ∃ before after a more devices,
      (l.inOrder c.order).Perm l.devices ∧ l.inOrder c.order = before ++ A :: after ∧
      Creation.commands (l.creation root c.order).record = Layout.commandsFrom root before [] ++ (a :: more) ++
        Layout.commandsFrom root after ((before ++ [A]).flatMap (·.recordings root)) ∧
      A.node.spec.Assembles a devices ∧ devices <:+ a.words ∧
      (group = .array → "--raid-devices=" ++ toString devices.length ∈ a.words) ∧
      ((l.inOrder c.order).flatMap (·.visits root [])).map Visit.node = (l.inOrder c.order).flatMap (·.node.subnodes) ∧
      devices.map Value.text = (((l.inOrder c.order).flatMap (·.visits root [])).filter
        (·.feeds group (.text A.node.key))).map (·.ctx.device) ∧
      ∀ P ∈ l.devices, ∀ n ∈ P.node.subnodes, n.spec.membership? = some (group, .text A.node.key) → P ∈ before := by
  obtain ⟨l', hl', hm, hs, hc, -⟩ := compile_ok h
  cases hl.symm.trans hl'
  have hwell := Layout.wellFormed_of_read hl
  obtain ⟨before, after, a, more, devices, hassembly⟩ := hwell.exists_assembly hm hs hc hA ha
  obtain ⟨hends, hcounts⟩ := hassembly.assembles.words
  refine ⟨before, after, a, more, devices, hassembly.perm, hassembly.inOrder_eq, hassembly.commands_creation hc,
    hassembly.assembles, hends, fun hg => hcounts ?_, ?_, ?_, fun P hP n hn hf => hassembly.precedes hP ?_⟩
  · rw [hwell.kind A hA, hassembly.group_eq, hg]
    rfl
  · rw [List.map_flatMap]
    refine List.flatMap_congr (fun d hd => ?_)
    obtain ⟨ms, hwalk⟩ := Layout.walk_of_mem hc hd
    exact Device.map_node_visits hwalk (hplaces d (hassembly.perm.mem_iff.1 hd))
  · rw [hassembly.devices_eq, hassembly.inOrder_eq, List.flatMap_append, List.filter_append, hassembly.filter_late hwell,
      List.append_nil]
  · rw [Node.memberships_eq_filterMap]
    exact List.mem_filterMap.2 ⟨n, hn, hf⟩

/-- An array of a partition and of a volume of a group that is itself on a partition. -/
theorem members_complete_of_array_on_group :
    let member := entry "content" (node "mdraid" [entry "name" (.text "md")])
    let tree : Value := .map [
      entry "disk" (.map [entry "a" (node "disk" [entry "device" (.text "/dev/sda"), entry "content" (node "table"
        [entry "partitions" (.list [node "partition" [entry "content" (node "lvm_pv" [entry "vg" (.text "vg")])],
          node "partition" [member]])])])]),
      entry "mdadm" (.map [entry "md" (node "mdadm" [])]),
      entry "lvm_vg" (.map [entry "vg" (node "lvm_vg" [entry "lvs"
        (.map [entry "half" (node "lvm_lv" [entry "size" (.text "1G"), member])])])])]
    ∃ c l A before after a devices, (compile tree "/mnt").outcome = .ok c ∧ (Layout.read tree).outcome = .ok l ∧
      A ∈ l.devices ∧ A.node.spec.aggregate? = some (.array, .text A.node.key) ∧
      l.inOrder c.order = before ++ A :: after ∧ A.node.spec.Assembles a devices ∧
      devices.map Value.text = (((l.inOrder c.order).flatMap (·.visits "/mnt" [])).filter
        (·.feeds .array (.text A.node.key))).map (·.ctx.device) ∧
      ∀ P ∈ l.devices, ∀ n ∈ P.node.subnodes, n.spec.membership? = some (.array, .text A.node.key) → P ∈ before := by
  intro member tree
  -- the layout that is read places all its nodes, and its array has its key for name
  have hchecked : (Layout.read tree).outcome.toOption.map (fun l =>
      l.devices.all (fun d => d.node.subnodes.all (fun n => n.spec.places || n.children.isEmpty)) &&
        l.devices.any (fun d => d.node.spec.aggregate?.any (fun a => a.1 == .array && Value.same (.text d.node.key) a.2))) =
      some true := by decide +kernel
  have hcompiles : (compile tree "/mnt").outcome.toOption.map (·.order) =
      some [⟨"disk", "a"⟩, ⟨"lvm_vg", "vg"⟩, ⟨"mdadm", "md"⟩] := by decide +kernel
  obtain ⟨l, hl, hl'⟩ := Option.map_eq_some_iff.1 hchecked
  obtain ⟨c, hc, -⟩ := Option.map_eq_some_iff.1 hcompiles
  replace hl := eq_ok_of_toOption hl
  replace hc := eq_ok_of_toOption hc
  obtain ⟨hplaces, harray⟩ := Bool.and_eq_true_iff.1 hl'
  obtain ⟨A, hA, ha⟩ := List.any_eq_true.1 harray
  replace ha := eq_some_of_any_named ha
  obtain ⟨before, after, a, more, devices, -, ho, -, hassembles, -, -, -, hdevices, hfirst⟩ :=
    members_complete hc hl (fun d hd n hn hp => by
      have := List.all_eq_true.1 (List.all_eq_true.1 hplaces d hd) n hn
      simpa [hp] using this) hA ha
  exact ⟨c, l, A, before, after, a, devices, hc, hl, hA, ha, ho, hassembles, hdevices, hfirst⟩
/-- **Where the order and the recordings agree on what a member feeds.**  The fact of a member puts an edge to the aggregate
whose key it names; the device of the member is listed by an aggregate whose name it names, if the aggregate comes later.
The two agree where the aggregate has its key for name, and elsewhere only for members that neither name the key nor, before
the aggregate, its name. -/
theorem feeding_iff_edge {tree : Value} {root : String} {c : Compiled} (h : (compile tree root).outcome = .ok c) {l : Layout}
    (hl : (Layout.read tree).outcome = .ok l) {P : Device} (hP : P ∈ l.devices) {M : Visit} (hM : M ∈ P.visits root [])
    {group : Group} {ref : Value} (hm : M.node.spec.membership? = some (group, ref)) {A : Device} (hA : A ∈ l.devices)
    {name : Value} (ha : A.node.spec.aggregate? = some (group, name)) :
    ∃ fact before after a more devices,
      Metadata.dependency group.name ref P.ref.toValue = .ok fact ∧ l.inOrder c.order = before ++ A :: after ∧
      A.commands root (before.flatMap (·.recordings root)) = a :: more ∧ A.node.spec.Assembles a devices ∧
      let feeding := (before.flatMap (·.visits root [])).filter (·.feeds group name)
      let edge := Edge.mk P.ref A.ref ∈ Order.between l.refs ((Metadata.requirements fact).flatMap Requirement.edges)
      let agreed := name = .text A.node.key ∨ ref ≠ .text A.node.key ∧ (P ∈ before → Value.same name ref = false)
      devices.map Value.text = feeding.map (·.ctx.device) ∧ (edge ↔ ref = .text A.node.key) ∧
      (edge → Edge.mk P.ref A.ref ∈ Order.between l.refs ((Metadata.requirements c.metadata).flatMap Requirement.edges)) ∧
      ((M ∈ feeding ↔ edge) ↔ agreed) ∧
      ((∀ v ∈ feeding, v.ctx.device = M.ctx.device → v = M) →
        ((M.ctx.device ∈ devices.map Value.text ↔ edge) ↔ agreed)) := by
  obtain ⟨l', hl', hmeta, hs, hc, -⟩ := compile_ok h
  cases hl.symm.trans hl'
  have hwell := Layout.wellFormed_of_read hl
  obtain ⟨before, after, a, more, devices, hassembly⟩ := hwell.exists_assembly hmeta hs hc hA ha
  have hmember : (group, ref) ∈ P.node.memberships := Visit.mem_memberships hM hm
  obtain ⟨fact, hfact⟩ := Layout.exists_fact hmeta hP hmember
  have hfeeding := hassembly.mem_feeding_iff hwell hP hM hm
  have hedge := hassembly.edge_iff hP hfact
  have hagreed : (P ∈ before ∧ Value.same name ref = true ↔ ref = .text A.node.key) ↔
      (name = .text A.node.key ∨ ref ≠ .text A.node.key ∧ (P ∈ before → Value.same name ref = false)) := by
    by_cases hk : ref = .text A.node.key
    · have hbefore : P ∈ before := hassembly.precedes hP (hk ▸ hmember)
      simp only [hbefore, hk, Value.same_eq_text_iff, true_and, iff_true, ne_eq, not_true, false_and, or_false]
    · by_cases hn : name = .text A.node.key
      · simp only [hn, Value.same_text_iff, hk, and_false, true_or]
      · simp only [hk, hn, false_or, iff_false, not_and, Bool.not_eq_true, ne_eq, not_false_eq_true, true_and]
  refine ⟨fact, before, after, a, more, devices, hfact, hassembly.inOrder_eq, hassembly.commands_eq, hassembly.assembles,
    hassembly.devices_eq, hedge, fun e => ?_, ?_, fun honly => ?_⟩
  · obtain ⟨-, hlisted⟩ := Order.mem_between.1 e
    exact Order.mem_between.2 ⟨(Layout.mem_edges_iff hmeta).2
      ⟨P, hP, _, hmember, congrArg Group.name hassembly.group_eq, hedge.1 e, rfl⟩, hlisted⟩
  · rw [hfeeding, hedge]
    exact hagreed
  · have hlisted : M.ctx.device ∈ devices.map Value.text ↔ P ∈ before ∧ Value.same name ref = true := by
      rw [hassembly.devices_eq, ← hfeeding, List.mem_map]
      exact ⟨fun ⟨v, hv, e⟩ => honly v hv e ▸ hv, fun hv => ⟨M, hv, rfl⟩⟩
    rw [hlisted, hedge]
    exact hagreed

/-- A group whose name is not its key, and a member that names the key: an edge leads to the group, but the group is made of
nothing. -/
theorem edge_without_feeding_of_renamed_group :
    let tree : Value := .map [
      entry "disk" (.map [entry "a" (node "disk" [entry "device" (.text "/dev/sda"),
        entry "content" (node "lvm_pv" [entry "vg" (.text "pool")])])]),
      entry "lvm_vg" (.map [entry "pool" (node "lvm_vg" [entry "name" (.text "data")])])]
    (compile tree "/mnt").outcome.toOption.map
        (fun c => (c.createScript, (Metadata.requirements c.metadata).flatMap Requirement.edges)) =
      some (Layout.createPreamble ++ "# disk a\n# lvm_pv\npvcreate /dev/sda\n# lvm_vg data\nvgcreate data\n",
        [⟨⟨"disk", "a"⟩, ⟨"lvm_vg", "pool"⟩⟩]) := by
  decide +kernel

theorem feeding_iff_edge_of_renamed_group :
    let tree : Value := .map [
      entry "disk" (.map [entry "a" (node "disk" [entry "device" (.text "/dev/sda"),
        entry "content" (node "lvm_pv" [entry "vg" (.text "pool")])])]),
      entry "lvm_vg" (.map [entry "pool" (node "lvm_vg" [entry "name" (.text "data")])])]
    ∃ c l P M A fact before after, (compile tree "/mnt").outcome = .ok c ∧ (Layout.read tree).outcome = .ok l ∧
      P ∈ l.devices ∧ M ∈ P.visits "/mnt" [] ∧ M.node.spec.membership? = some (.volumeGroup, .text "pool") ∧
      A ∈ l.devices ∧ A.node.spec.aggregate? = some (.volumeGroup, .text "data") ∧ A.node.key = "pool" ∧
      Metadata.dependency Group.volumeGroup.name (.text "pool") P.ref.toValue = .ok fact ∧
      l.inOrder c.order = before ++ A :: after ∧
      ¬ (M ∈ (before.flatMap (·.visits "/mnt" [])).filter (·.feeds .volumeGroup (.text "data")) ↔
        Edge.mk P.ref A.ref ∈ Order.between l.refs ((Metadata.requirements fact).flatMap Requirement.edges)) := by
  intro tree
  have hchecked : (Layout.read tree).outcome.toOption.map (fun l =>
      l.devices.any (fun d => (d.visits "/mnt" []).any (fun v => v.node.spec.membership?.any (fun m =>
          m.1 == .volumeGroup && Value.same (.text "pool") m.2))) &&
        l.devices.any (fun d => d.node.key == "pool" && d.node.spec.aggregate?.any (fun a =>
          a.1 == .volumeGroup && Value.same (.text "data") a.2))) = some true := by decide +kernel
  have hcompiles : (compile tree "/mnt").outcome.toOption.map (·.order) =
      some [⟨"disk", "a"⟩, ⟨"lvm_vg", "pool"⟩] := by decide +kernel
  obtain ⟨l, hl, hl'⟩ := Option.map_eq_some_iff.1 hchecked
  obtain ⟨c, hc, -⟩ := Option.map_eq_some_iff.1 hcompiles
  replace hl := eq_ok_of_toOption hl
  replace hc := eq_ok_of_toOption hc
  obtain ⟨hmember, hgroup⟩ := Bool.and_eq_true_iff.1 hl'
  obtain ⟨P, hP, hM⟩ := List.any_eq_true.1 hmember
  obtain ⟨M, hM, hm⟩ := List.any_eq_true.1 hM
  obtain ⟨A, hA, ha⟩ := List.any_eq_true.1 hgroup
  obtain ⟨hkey, ha⟩ := Bool.and_eq_true_iff.1 ha
  replace hkey := beq_iff_eq.1 hkey
  replace hm := eq_some_of_any_named hm
  replace ha := eq_some_of_any_named ha
  obtain ⟨fact, before, after, -, -, -, hfact, ho, -, -, -, -, -, hagreed, -⟩ := feeding_iff_edge hc hl hP hM hm hA ha
  refine ⟨c, l, P, M, A, fact, before, after, hc, hl, hP, hM, hm, hA, ha, hkey, hfact, ho, fun hagree => ?_⟩
  rw [hkey] at hagreed
  simpa using hagreed.1 hagree
end Provision
