import Provision.Proofs.Creation.Frame
import Provision.Proofs.Layout.Placed
import Provision.Proofs.Mount.Devices
/-!
# What every walk makes of every node

The creation, the mount and the configuration walk meet every placed node once, and what they make is what these nodes make,
each once (`Layout.Walked`).  Metadata and packages are made from all nodes.  So all five agree on a layout exactly where
nothing lies below a dataset that is a filesystem (`walks_meet_all_nodes_iff`); a member that lies there is a fact of the
metadata, but its device is never recorded.
-/
namespace Provision

open Value (entry node)

namespace Creation

@[simp] theorem steps_map_run (as : List Action) : steps (as.map (fun a => .step (.run a))) = as.map .run := by
  simp [steps]

@[simp] theorem recordings_log {α : Type} (x : Logged α) : recordings (log x).record = [] := by
  simp [log, recordings]

theorem steps_remember (group : Group) (name device : Value) : steps (remember group name device).record = [] := by
  rw [remember, Traced.record_bind, steps_append, steps_log]
  split <;> rfl

end Creation

theorem steps_memberPaths {group : Group} {name : Value} {ctx : Context} {paths : List String}
    (h : (memberPaths group name ctx).outcome = .ok paths) : Creation.steps (memberPaths group name ctx).record = [] := by
  unfold memberPaths at h ⊢
  obtain ⟨devices, hdevices, h⟩ := Traced.outcome_bind_eq_ok_iff.1 h
  obtain ⟨_, hname, h⟩ := Traced.outcome_bind_eq_ok_iff.1 h
  obtain ⟨paths', hpaths, -⟩ := Traced.outcome_bind_eq_ok_iff.1 h
  rw [Creation.outcome_log] at hdevices
  rw [Traced.outcome_liftM] at hname
  have hquiet : devices.flatMap (fun _ => ([] : List CreationEvent)) = [] := List.flatMap_eq_nil_iff.2 (fun _ _ => rfl)
  simp [Traced.record_bind, hdevices, hname, hpaths, Traced.record_mapM hpaths, hquiet]

namespace Visit

def creationSteps (v : Visit) : List (Step Action) :=
  [.frame v.node.spec.kind v.node.spec.label, .hook v.node.hooks.preCreate] ++ v.commands.map .run ++
    [.hook v.node.hooks.postCreate]

def mountSteps (v : Visit) : List (Step Activation) :=
  [.hook v.node.hooks.preMount] ++ v.activations.map .run ++ [.hook v.node.hooks.postMount]

def dependency? (v : Visit) : Option (Option DeviceRef × Group × Value) :=
  v.node.spec.membership?.map (v.ctx.parent, ·)

theorem mountSteps_withMembers (ms : List Recording) (v : Visit) : (v.withMembers ms).mountSteps = v.mountSteps := by
  rw [mountSteps, activations_withMembers]
  rfl

theorem steps_prepare {spec : Spec} {ctx : Context} {bare : Bool} {devices : List String}
    (h : (spec.prepare ctx bare).outcome = .ok devices) : Creation.steps (spec.prepare ctx bare).record = [] := by
  unfold Spec.prepare at h ⊢
  cases hm : spec.membership? with
  | some m =>
    obtain ⟨group, name⟩ := m
    dsimp only
    rw [Traced.record_bind, Creation.steps_append, Creation.steps_remember]
    split <;> rfl
  | none =>
    cases ha : spec.aggregate? with
    | some a =>
      simp only [hm, ha] at h
      exact steps_memberPaths h
    | none =>
      dsimp only
      split
      · rename_i named text _
        cases Value.requireWritable named <;> rfl
      · rfl

theorem steps_own {v : Visit} (h : v.own.outcome = .ok ()) : Creation.steps v.own.record = v.commands.map .run := by
  have h' := h
  unfold own Spec.create at h'
  obtain ⟨devices, hdevices, h'⟩ := Traced.outcome_bind_eq_ok_iff.1 h'
  obtain ⟨actions, hactions, h'⟩ := Traced.outcome_bind_eq_ok_iff.1 h'
  obtain ⟨_, hwritten, -⟩ := Traced.outcome_bind_eq_ok_iff.1 h'
  rw [Traced.outcome_liftM] at hactions hwritten
  have hsteps : Creation.steps v.own.record = actions.map .run := by
    rw [own, Spec.create]
    simp only [Traced.record_bind, hdevices, Creation.steps_append, steps_prepare hdevices, Traced.record_liftM,
      Traced.outcome_liftM, hactions, hwritten, Creation.record_forM_run, Creation.steps_map_run, List.nil_append]
  rw [hsteps, commands, Creation.commands, hsteps, Step.commands_map_run]

end Visit

namespace Node

mutual

/-- **The steps of a creation that succeeds** are those of the nodes that it meets, each once. -/
theorem perm_steps_create : ∀ (n : Node) (ctx : Context), (n.create ctx).outcome = .ok () →
    (Creation.steps (n.create ctx).record).Perm ((n.visits ctx).flatMap Visit.creationSteps)
  | ⟨key, spec, hooks, children⟩, ctx, h => by
    obtain ⟨hown, hbelow, -⟩ := create_ok h
    have hb := createBelow_ok hbelow
    rw [steps_create h, body, Traced.record_bind, hown, Creation.steps_append, Visit.steps_own hown, visits_eq,
      List.flatMap_cons, Visit.creationSteps]
    have hperm : (Creation.steps (createBelow ⟨key, spec, hooks, children⟩ ctx).record).Perm
        ((match spec.handed? ctx with
          | some inner => visitsAll children inner
          | none => []).flatMap Visit.creationSteps) := by
      cases hhanded : spec.handed? ctx with
      | some inner =>
        simp only [hhanded] at hb
        rw [hb.2]
        exact perm_steps_createAll children inner hb.1
      | none =>
        simp only [hhanded] at hb
        rw [hb.1]
        exact .refl _
    -- the hook after the creation comes after the nodes below
    simp only [List.append_assoc, List.cons_append, List.nil_append]
    exact ((List.perm_append_comm.trans (hperm.append_left _)).append_left _).cons _ |>.cons _

theorem perm_steps_createAll : ∀ (ns : List Node) (ctx : Context), (createAll ns ctx).outcome = .ok () →
    (Creation.steps (createAll ns ctx).record).Perm ((visitsAll ns ctx).flatMap Visit.creationSteps)
  | [], _, _ => .refl _
  | n :: ns, ctx, h => by
    rw [createAll] at h ⊢
    obtain ⟨_, hn, hns⟩ := Traced.outcome_bind_eq_ok_iff.1 h
    rw [Traced.record_bind, hn, Creation.steps_append, visitsAll, List.flatMap_append]
    exact (perm_steps_create n ctx hn).append (perm_steps_createAll ns ctx hns)

end

mutual

/-- **The activation steps of a tree** are those of the nodes that the mount walk meets, each once. -/
theorem perm_activation_mount : ∀ (n : Node) (ctx : Context) (f : MountFragment), (n.mount ctx).outcome = .ok f →
    f.activation.Perm ((n.visits ctx).flatMap Visit.mountSteps)
  | ⟨key, spec, hooks, children⟩, ctx, f, h => by
    rw [mount_eq] at h
    obtain ⟨below, hbelow, h⟩ := Traced.outcome_bind_eq_ok_iff.1 h
    obtain ⟨own, -, h⟩ := Traced.outcome_bind_eq_ok_iff.1 h
    obtain ⟨_, -, h⟩ := Traced.outcome_bind_eq_ok_iff.1 h
    obtain rfl := Except.ok.inj h
    have hb := mountBelow_ok hbelow
    have hperm : below.activation.Perm ((match spec.handed? ctx with
        | some inner => visitsAll children inner
        | none => []).flatMap Visit.mountSteps) := by
      cases hhanded : spec.handed? ctx with
      | some inner =>
        simp only [hhanded] at hb
        exact perm_activation_mountAll children inner .empty below hb
      | none =>
        simp only [hhanded] at hb
        rw [hb]
        exact .refl _
    rw [visits_eq, List.flatMap_cons, Visit.mountSteps]
    simp only [List.append_assoc]
    exact ((List.perm_append_comm.trans (hperm.append_left _)).append_left _).append_left _

theorem perm_activation_mountAll : ∀ (ns : List Node) (ctx : Context) (acc f : MountFragment),
    (mountAll ns ctx acc).outcome = .ok f →
    f.activation.Perm (acc.activation ++ (visitsAll ns ctx).flatMap Visit.mountSteps)
  | [], ctx, acc, f, h => by
    obtain rfl : acc = f := Except.ok.inj h
    simp [visitsAll]
  | n :: ns, ctx, acc, f, h => by
    rw [mountAll] at h
    obtain ⟨g, hg, h⟩ := Traced.outcome_bind_eq_ok_iff.1 h
    obtain ⟨acc', hadd, h⟩ := Traced.outcome_bind_eq_ok_iff.1 h
    rw [Fragment.outcome_add] at hadd
    obtain rfl := Except.ok.inj hadd
    refine (perm_activation_mountAll ns ctx _ f h).trans ?_
    rw [visitsAll, List.flatMap_append, ← List.append_assoc]
    exact ((perm_activation_mount n ctx g hg).append_left _).append_right _

end

mutual

/-- **The packages of a tree** are those of all its nodes. -/
theorem tools_ok : ∀ (n : Node) (ts : List String), n.tools = .ok ts →
    ∃ own, List.Forall₂ (fun m us => m.spec.tools = .ok us) n.subnodes own ∧ ts = own.flatten
  | ⟨key, spec, hooks, children⟩, ts, h => by
    rw [tools] at h
    obtain ⟨own, hown, h⟩ := except_bind_eq_ok_iff.1 h
    obtain ⟨_, -, h⟩ := except_bind_eq_ok_iff.1 h
    obtain ⟨below, hbelow, h⟩ := except_bind_eq_ok_iff.1 h
    obtain rfl := Except.ok.inj h
    obtain ⟨parts, hparts, rfl⟩ := toolsAll_ok children below hbelow
    rw [subnodes_eq]
    exact ⟨own :: parts, .cons hown hparts, rfl⟩

theorem toolsAll_ok : ∀ (ns : List Node) (ts : List String), toolsAll ns = .ok ts →
    ∃ own, List.Forall₂ (fun m us => m.spec.tools = .ok us) (subnodesAll ns) own ∧ ts = own.flatten
  | [], ts, h => by
    obtain rfl : [] = ts := Except.ok.inj h
    exact ⟨[], .nil, rfl⟩
  | n :: ns, ts, h => by
    rw [toolsAll] at h
    obtain ⟨first, hfirst, h⟩ := except_bind_eq_ok_iff.1 h
    obtain ⟨rest, hrest, h⟩ := except_bind_eq_ok_iff.1 h
    obtain rfl := Except.ok.inj h
    obtain ⟨own, hown, rfl⟩ := tools_ok n first hfirst
    obtain ⟨others, hothers, rfl⟩ := toolsAll_ok ns rest hrest
    exact ⟨own ++ others, List.rel_append hown hothers, (List.flatten_append).symm⟩

end

theorem toolsAll_eq_mapM (ns : List Node) : toolsAll ns = List.flatten <$> ns.mapM tools := by
  induction ns with
  | nil => rfl
  | cons n ns ih =>
    rw [toolsAll, ih, List.mapM_cons]
    cases n.tools <;> cases ns.mapM tools <;> rfl

end Node

/-- The members among nodes of a device: the device itself, and the aggregate that each of them names. -/
def Device.membersOf (d : Device) (ns : List Node) : List (Option DeviceRef × Group × Value) :=
  ns.filterMap (fun n => n.spec.membership?.map (some d.ref, ·))

theorem Device.filterMap_dependency?_visits {d : Device} {root : String} {ms : List Recording}
    (h : (d.node.create (d.context root ms)).outcome = .ok ()) :
    (d.visits root ms).filterMap Visit.dependency? = d.membersOf d.node.placed := by
  rw [membersOf, ← Node.map_node_visits_eq_placed d.node _ h, List.filterMap_map]
  refine List.filterMap_congr (fun v hv => ?_)
  rw [Visit.dependency?, (Node.keeps_of_mem_visits d.node _ v hv).1]
  rfl

namespace Layout

theorem createDevices_ok {root : String} : ∀ {ds : List Device} {ms : List Recording},
    (createDevices root ds ms).outcome = .ok () →
    (creationVisits root ds ms).map Visit.node = Node.placedAll (ds.map Device.node) ∧
      (creationVisits root ds ms).filterMap Visit.dependency? = ds.flatMap (fun d => d.membersOf d.node.placed) ∧
      (Creation.steps (createDevices root ds ms).record).Perm ((creationVisits root ds ms).flatMap Visit.creationSteps) ∧
      Creation.recordings (createDevices root ds ms).record = (creationVisits root ds ms).filterMap Visit.recording?
  | [], _, _ => ⟨rfl, rfl, .refl _, rfl⟩
  | d :: ds, ms, h => by
    obtain ⟨hwalk, hrest, -⟩ := createDevices_cons_ok h
    obtain ⟨-, hrecordings, -⟩ := Device.walk_ok hwalk
    obtain ⟨hnodes, hmembers, hsteps, hrecorded⟩ := createDevices_ok hrest
    have hrecord : (createDevices root (d :: ds) ms).record =
        (Creation.log (logDebug ("Assembling creation commands for " ++ d.ref.text))).record ++
          ((d.node.create (d.context root ms)).record ++ (createDevices root ds (ms ++ d.recordings root)).record) := by
      rw [createDevices]
      simp only [Traced.record_bind, Creation.outcome_log, logDebug, Traced.outcome_tell, hwalk, hrecordings]
    rw [hrecord, creationVisits]
    refine ⟨?_, ?_, ?_, ?_⟩
    · rw [List.map_append, List.map_cons, Node.placedAll, hnodes]
      exact congrArg (· ++ _) (Node.map_node_visits_eq_placed d.node _ hwalk)
    · rw [List.filterMap_append, List.flatMap_cons, Device.filterMap_dependency?_visits hwalk, hmembers]
    · rw [Creation.steps_append, Creation.steps_append, Creation.steps_log, List.nil_append, List.flatMap_append]
      exact (Node.perm_steps_create d.node _ hwalk).append hsteps
    · rw [Creation.recordings_append, Creation.recordings_append, Creation.recordings_log, List.nil_append,
        List.filterMap_append, hrecordings, hrecorded, Device.filterMap_recording?_visits]

theorem perm_activation_mountDevices {root : String} : ∀ {ds : List Device} {acc f : MountFragment},
    (mountDevices root ds acc).outcome = .ok f →
    f.activation.Perm (acc.activation ++ ds.flatMap (fun d => (d.visits root []).flatMap Visit.mountSteps))
  | [], acc, f, h => by
    obtain rfl : acc = f := Except.ok.inj h
    simp
  | d :: ds, acc, f, h => by
    rw [mountDevices] at h
    obtain ⟨g, hg, h⟩ := Traced.outcome_bind_eq_ok_iff.1 h
    obtain ⟨acc', hadd, h⟩ := Traced.outcome_bind_eq_ok_iff.1 h
    rw [Fragment.outcome_add] at hadd
    obtain rfl := Except.ok.inj hadd
    refine (perm_activation_mountDevices h).trans ?_
    rw [List.flatMap_cons, ← List.append_assoc]
    exact ((Node.perm_activation_mount d.node _ g hg).append_left _).append_right _

theorem compile_tools {tree : Value} {root : String} {c : Compiled} (h : (compile tree root).outcome = .ok c) {l : Layout}
    (hl : (Layout.read tree).outcome = .ok l) : l.tools = .ok c.tools := by
  unfold compile at h
  simp only [Traced.outcome_bind_eq_ok_iff, Traced.outcome_liftM, Traced.outcome_pure, Except.ok.injEq] at h
  obtain ⟨l', hl', -, -, -, -, _, _, -, -, -, -, -, -, tools, htools, _, _, rfl⟩ := h
  cases hl.symm.trans hl'
  exact htools

theorem tools_ok {l : Layout} {ts : List String} (h : l.tools = .ok ts) :
    ∃ own, List.Forall₂ (fun n us => n.spec.tools = .ok us) l.nodes own ∧ ts = sortedOnce own.flatten := by
  obtain ⟨parts, hparts, h⟩ := except_bind_eq_ok_iff.1 h
  obtain rfl := Except.ok.inj h
  have hall : Node.toolsAll (l.devices.map Device.node) = .ok parts.flatten := by
    rw [Node.toolsAll_eq_mapM, List.mapM_map, Function.comp_def, hparts]
    rfl
  obtain ⟨own, hown, hflat⟩ := Node.toolsAll_ok _ _ hall
  exact ⟨own, hown, by rw [hflat]⟩

def placed (l : Layout) : List Node := Node.placedAll (l.devices.map Device.node)

theorem mem_nodes_of_mem_placed {l : Layout} {n : Node} (hn : n ∈ l.placed) : n ∈ l.nodes :=
  (Node.placedAll_sublist _).subset hn

/-- **What the walks of a layout make, node by node.**  `vs` are the visits of the creation: the placed nodes, in the
order of their devices.  The mount and the configuration walk meet the same nodes in the same contexts.  What comes from
metadata and packages is made from all nodes of the layout. -/
structure Walked (l : Layout) (root : String) (c : Compiled) (vs : List Visit) : Prop where
  devices : (l.inOrder c.order).Perm l.devices
  contexts : vs.map (Visit.withMembers []) = (l.inOrder c.order).flatMap (·.visits root [])
  nodes : vs.map Visit.node = Node.placedAll ((l.inOrder c.order).map Device.node)
  members : vs.filterMap Visit.dependency? = (l.inOrder c.order).flatMap (fun d => d.membersOf d.node.placed)
  script : c.createScript = createPreamble ++ creationText (Creation.steps (l.creation root c.order).record)
  created : (Creation.steps (l.creation root c.order).record).Perm (vs.flatMap Visit.creationSteps)
  recorded : Creation.recordings (l.creation root c.order).record = vs.filterMap Visit.recording?
  mounted : ∃ (f : MountFragment) (es : List (String × Mounting)), c.mountScript = mountText f ∧
    f.activation.Perm (vs.flatMap Visit.mountSteps) ∧ f.mounts.HoldsLast es ∧ es.Perm (vs.filterMap Visit.entered?)
  configured : c.facts.Perm (vs.flatMap Visit.facts)
  stated : ∃ parts, List.Forall₂ (fun (d : Device) part => ∃ facts,
      List.Forall₂ (fun m fact => Metadata.dependency m.1.name m.2 d.ref.toValue = .ok fact)
        (d.node.subnodes.filterMap (·.spec.membership?)) facts ∧ part = Metadata.mergeAll facts) l.devices parts ∧
    c.metadata = Metadata.mergeAll parts
  packaged : ∃ own, List.Forall₂ (fun n us => n.spec.tools = .ok us) l.nodes own ∧ c.tools = sortedOnce own.flatten

theorem stated_of_metadata {l : Layout} {m : Value.Entries} (h : l.metadata = .ok m) :
    ∃ parts, List.Forall₂ (fun (d : Device) part => ∃ facts,
        List.Forall₂ (fun m fact => Metadata.dependency m.1.name m.2 d.ref.toValue = .ok fact)
          (d.node.subnodes.filterMap (·.spec.membership?)) facts ∧ part = Metadata.mergeAll facts) l.devices parts ∧
      m = Metadata.mergeAll parts := by
  obtain ⟨parts, hparts, h⟩ := except_bind_eq_ok_iff.1 h
  obtain rfl := Except.ok.inj h
  refine ⟨parts, (except_mapM_eq_ok_iff.1 hparts).imp (fun d part hpart => ?_), rfl⟩
  obtain ⟨_, -, hpart⟩ := except_bind_eq_ok_iff.1 hpart
  obtain ⟨facts, hfacts, hpart⟩ := except_bind_eq_ok_iff.1 hpart
  rw [← Node.memberships_eq_filterMap]
  exact ⟨facts, except_mapM_eq_ok_iff.1 hfacts, (Except.ok.inj hpart).symm⟩

/-- **A layout that compiles was walked.** -/
theorem walked_of_compile {tree : Value} {root : String} {c : Compiled} (h : (compile tree root).outcome = .ok c) :
    ∃ l, (Layout.read tree).outcome = .ok l ∧ (l.creation root c.order).outcome = .ok () ∧
      l.Walked root c (creationVisits root (l.inOrder c.order) []) := by
  obtain ⟨l, hl, hmeta, hs, hcreation, hcreate⟩ := compile_ok h
  have hwell := wellFormed_of_read hl
  have hperm := hwell.perm_inOrder (Order.perm_of_sort hwell.nodup (Requirement.sort_eq_ok hs))
  obtain ⟨f, hf, hmount, hfacts⟩ := compile_mounts h hl
  obtain ⟨-, hmounts, -⟩ := mountFragment_ok hf
  obtain ⟨hreported, -, -⟩ := facts_ok hwell hfacts root
  obtain ⟨hnodes, hmembers, hsteps, hrecorded⟩ := createDevices_ok hcreation
  have hactivation : f.activation.Perm ([] ++ _) := perm_activation_mountDevices hf
  refine ⟨l, hl, hcreation, hperm, map_withMembers_creationVisits .., hnodes, hmembers, hcreate, hsteps, hrecorded,
    ⟨f, _, hmount, ?_, hmounts, perm_mountings root _ []⟩, ?_, stated_of_metadata hmeta, tools_ok (compile_tools h hl)⟩
  · rwa [List.nil_append, ← flatMap_creationVisits Visit.mountSteps_withMembers root (l.inOrder c.order) []] at hactivation
  · rw [flatMap_creationVisits Visit.facts_withMembers]
    exact hreported.trans (hperm.flatMap_right _).symm

namespace Walked

variable {l : Layout} {root : String} {c : Compiled} {vs : List Visit}

theorem perm_placed (h : l.Walked root c vs) : (vs.map Visit.node).Perm l.placed := by
  rw [h.nodes, placed, Node.placedAll_eq_flatMap, Node.placedAll_eq_flatMap]
  exact (h.devices.map _).flatMap_right _

theorem exists_visit_iff (h : l.Walked root c vs) {P : Node → Prop} : (∃ v ∈ vs, P v.node) ↔ ∃ n ∈ l.placed, P n := by
  constructor
  · rintro ⟨v, hv, hP⟩
    exact ⟨v.node, h.perm_placed.mem_iff.1 (List.mem_map_of_mem hv), hP⟩
  · rintro ⟨n, hn, hP⟩
    obtain ⟨v, hv, rfl⟩ := List.mem_map.1 (h.perm_placed.mem_iff.2 hn)
    exact ⟨v, hv, hP⟩

theorem mem_nodes (h : l.Walked root c vs) {v : Visit} (hv : v ∈ vs) : v.node ∈ l.nodes :=
  mem_nodes_of_mem_placed (h.perm_placed.mem_iff.1 (List.mem_map_of_mem hv))

/-- **The walks meet all nodes** exactly where no dataset that is a filesystem holds one. -/
theorem perm_nodes_iff (h : l.Walked root c vs) : (vs.map Visit.node).Perm l.nodes ↔
    ∀ n ∈ l.nodes, n.spec.places = false → n.children = [] := by
  have hall := Node.flatMap_placedAll_eq_iff (fun n => [n]) (l.devices.map Device.node)
  simp only [List.flatMap_singleton'] at hall
  rw [h.perm_placed.congr_left, placed, Layout.nodes, perm_iff_eq_of_sublist (Node.placedAll_sublist _), hall]
  simp only [Node.subnodesAll_eq_nil_iff]

/-- **Facts and recordings of members correspond** exactly where no dataset that is a filesystem holds a member. -/
theorem perm_members_iff (h : l.Walked root c vs) :
    (vs.filterMap Visit.dependency?).Perm (l.devices.flatMap (fun d => d.membersOf d.node.subnodes)) ↔
      ∀ n ∈ l.nodes, n.spec.places = false → ∀ m ∈ Node.subnodesAll n.children, m.spec.membership? = none := by
  have hsub (d : Device) (_ : d ∈ l.devices) : (d.membersOf d.node.placed).Sublist (d.membersOf d.node.subnodes) :=
    (Node.placed_sublist d.node).filterMap _
  have hdevice (d : Device) : d.membersOf d.node.placed = d.membersOf d.node.subnodes ↔
      ∀ n ∈ d.node.subnodes, n.spec.places = false → ∀ m ∈ Node.subnodesAll n.children, m.spec.membership? = none := by
    rw [Device.membersOf, Device.membersOf, List.filterMap_eq_flatMap_toList, List.filterMap_eq_flatMap_toList,
      Node.flatMap_placed_eq_iff]
    simp only [List.flatMap_eq_nil_iff, Option.toList_eq_nil_iff, Option.map_eq_none_iff]
  rw [h.members, (h.devices.flatMap_right _).congr_left, perm_iff_eq_of_sublist (.flatMap_right _ hsub),
    flatMap_eq_iff_of_sublist hsub]
  simp only [hdevice]
  exact ⟨fun hall n hn => (mem_nodes_iff.1 hn).elim (fun d hd => hall d hd.1 n hd.2),
    fun hall d hd n hn => hall n (mem_nodes_iff.2 ⟨d, hd, hn⟩)⟩

end Walked

end Layout

/-- **Where all five walks agree on the nodes of a layout.**  Creation, mount and configuration meet the placed nodes,
each once, and nothing else is in what they make; metadata and packages are made from all nodes, each once.  So no node
is dropped exactly where no dataset that is a filesystem holds one, and the facts on members and the recordings of
members correspond exactly where none holds a member. -/
theorem walks_meet_all_nodes_iff {tree : Value} {root : String} {c : Compiled} (h : (compile tree root).outcome = .ok c) :
    ∃ l vs, (Layout.read tree).outcome = .ok l ∧ l.Walked root c vs ∧
      ((vs.map Visit.node).Perm l.nodes ↔ ∀ n ∈ l.nodes, n.spec.places = false → n.children = []) ∧
      ((vs.filterMap Visit.dependency?).Perm (l.devices.flatMap (fun d => d.membersOf d.node.subnodes)) ↔
        ∀ n ∈ l.nodes, n.spec.places = false → ∀ m ∈ Node.subnodesAll n.children, m.spec.membership? = none) := by
  obtain ⟨l, hl, -, hwalked⟩ := Layout.walked_of_compile h
  exact ⟨l, _, hl, hwalked, hwalked.perm_nodes_iff, hwalked.perm_members_iff⟩

/-- A member below a dataset that is a filesystem: the metadata and the packages count it, the creation script drops it. -/
theorem member_dropped_below_dataset :
    let tree : Value := .map [entry "zpool" (.map [entry "tank" (node "zpool" [entry "datasets" (.map [
      entry "data" (node "zfs_dataset" [entry "zfs_type" (.text "filesystem"),
        entry "content" (node "mdraid" [entry "name" (.text "md")])])])])])]
    (Layout.read tree).outcome.toOption.map
          (fun l => (l.nodes.map (·.spec.kind), (l.devices.mapM (fun (d : Device) => d.node.tools)).toOption)) =
        some ([.pool, .dataset, .arrayMember], some [["util-linux", "zfs", "util-linux", "mdadm"]]) ∧
      (compile tree "/mnt").outcome.toOption.map
          (fun c => (c.createScript, (Metadata.requirements c.metadata).flatMap Requirement.edges)) =
        some (Layout.createPreamble ++ "# zpool tank\nzpool create tank\n# zfs_dataset data\nzfs create tank/data\n",
          [⟨⟨"zpool", "tank"⟩, ⟨"mdadm", "md"⟩⟩]) := by
  decide +kernel

/-- A member on a volume of a pool, beside a dataset that holds nothing. -/
theorem walks_meet_all_nodes_of_volume :
    let tree : Value := .map [
      entry "disk" (.map [entry "a" (node "disk" [entry "device" (.text "/dev/sda"),
        entry "content" (node "zfs" [entry "pool" (.text "tank")])])]),
      entry "zpool" (.map [entry "tank" (node "zpool" [entry "datasets" (.map [
        entry "home" (node "zfs_dataset" [entry "zfs_type" (.text "filesystem"), entry "mountpoint" (.text "/home")]),
        entry "data" (node "zfs_dataset" [entry "zfs_type" (.text "volume"), entry "size" (.text "1G"),
          entry "content" (node "lvm_pv" [entry "vg" (.text "vg")])])])])]),
      entry "lvm_vg" (.map [entry "vg" (node "lvm_vg" [])])]
    ∃ c l vs, (compile tree "/mnt").outcome = .ok c ∧ (Layout.read tree).outcome = .ok l ∧ l.Walked "/mnt" c vs ∧
      l.nodes.length = 7 ∧ (vs.map Visit.node).Perm l.nodes ∧
      (vs.filterMap Visit.dependency?).Perm (l.devices.flatMap (fun d => d.membersOf d.node.subnodes)) := by
  intro tree
  have hcompiles : (compile tree "/mnt").outcome.toOption.isSome = true := by decide +kernel
  have hchecked : (Layout.read tree).outcome.toOption.map (fun l =>
      (l.nodes.length, l.nodes.all (fun n => n.spec.places || n.children.isEmpty))) = some (7, true) := by decide +kernel
  obtain ⟨c, hc⟩ := Option.isSome_iff_exists.1 hcompiles
  obtain ⟨l, hl, hchecked⟩ := Option.map_eq_some_iff.1 hchecked
  obtain ⟨hlength, hall⟩ := Prod.mk.inj hchecked
  replace hc := eq_ok_of_toOption hc
  obtain ⟨l', vs, hl', hwalked, hnodes, hmembers⟩ := walks_meet_all_nodes_iff hc
  cases (eq_ok_of_toOption hl).symm.trans hl'
  have hplaces (n : Node) (hn : n ∈ l.nodes) (hp : n.spec.places = false) : n.children = [] := by
    simpa [hp] using List.all_eq_true.1 hall n hn
  refine ⟨c, l, vs, hc, hl', hwalked, hlength, hnodes.2 hplaces, hmembers.2 (fun n hn hp m hm => ?_)⟩
  rw [hplaces n hn hp] at hm
  cases hm

end Provision
