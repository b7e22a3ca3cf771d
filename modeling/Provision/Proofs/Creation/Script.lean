import Provision.Proofs.Hooks
import Provision.Proofs.Layout.Kept
/-!
# The creation script in the order of declaration

Apart from hooks, the steps of a creation are those of the nodes that the walk meets, each node before the nodes below
it: the comment that names it, and its own commands (`Node.bare_create`).  Where no member names an aggregate that is a
device of the layout, there is nothing to order, and the devices stay as they were declared.  So without hooks the
creation script is that of the declared tree, node by node (`createScript_follows_declaration`).
-/
namespace Provision

open Value (Entries entry node)

namespace Step

variable {α : Type}

def isHook : Step α → Bool
  | hook _ => true
  | _ => false

def bare (steps : List (Step α)) : List (Step α) := steps.filter (fun s => !s.isHook)

@[simp] theorem bare_nil : bare ([] : List (Step α)) = [] := rfl

@[simp] theorem bare_append (ss ts : List (Step α)) : bare (ss ++ ts) = bare ss ++ bare ts := List.filter_append ..

@[simp] theorem bare_hook (snippet : String) (ss : List (Step α)) : bare (.hook snippet :: ss) = bare ss := rfl

@[simp] theorem bare_frame (kind : Kind) (label : Value) (ss : List (Step α)) :
    bare (.frame kind label :: ss) = .frame kind label :: bare ss := rfl

@[simp] theorem bare_run (a : α) (ss : List (Step α)) : bare (.run a :: ss) = .run a :: bare ss := rfl

@[simp] theorem bare_map_run (as : List α) : bare (as.map .run) = as.map .run := by
  simp [bare, isHook]

end Step

theorem creationText_cons (s : Step Action) (ss : List (Step Action)) :
    creationText (s :: ss) = s.script Action.script ++ creationText ss := by
  rw [creationText, List.map_cons, String.join_cons, creationText]

theorem creationText_append (ss ts : List (Step Action)) : creationText (ss ++ ts) = creationText ss ++ creationText ts :=
  Step.text_append Action.script ss ts

theorem creationText_bare : ∀ {steps : List (Step Action)}, (∀ snippet, .hook snippet ∈ steps → snippet = "") →
    creationText (Step.bare steps) = creationText steps
  | [], _ => rfl
  | s :: ss, h => by
    have ih := creationText_bare (fun snippet hs => h snippet (List.mem_cons_of_mem _ hs))
    rw [creationText_cons, ← ih]
    cases s with
    | hook snippet =>
      rw [h snippet List.mem_cons_self, Step.bare_hook, Step.script, hookScript, if_pos rfl, String.empty_append]
    | frame kind label => rw [Step.bare_frame, creationText_cons]
    | run a => rw [Step.bare_run, creationText_cons]

namespace Visit

/-- The steps of the creation for a node without its hooks: the comment that names it, and its own commands. -/
def framed (v : Visit) : List (Step Action) := .frame v.node.spec.kind v.node.spec.label :: v.commands.map .run

def script (v : Visit) : String :=
  "# " ++ Step.title v.node.spec.kind v.node.spec.label ++ "\n" ++ String.join (v.commands.map Action.script)

theorem creationText_framed (v : Visit) : creationText v.framed = v.script := by
  rw [framed, creationText_cons, creationText, List.map_map]
  rfl

end Visit

theorem creationText_flatMap_framed (vs : List Visit) :
    creationText (vs.flatMap Visit.framed) = String.join (vs.map Visit.script) := by
  induction vs with
  | nil => rfl
  | cons v vs ih =>
    rw [List.flatMap_cons, creationText_append, Visit.creationText_framed, ih, List.map_cons, String.join_cons]

namespace Node

theorem bare_create_eq {n : Node} {ctx : Context} (h : (n.create ctx).outcome = .ok ()) :
    Step.bare (Creation.steps (n.create ctx).record) =
      Visit.framed ⟨n, ctx⟩ ++ Step.bare (Creation.steps (createBelow n ctx).record) := by
  obtain ⟨hown, -, -⟩ := create_ok h
  rw [steps_create h, body, Traced.record_bind, hown, Creation.steps_append, Visit.steps_own hown, Visit.framed]
  simp only [Step.bare_frame, Step.bare_hook, Step.bare_append, Step.bare_map_run, Step.bare_nil, List.cons_append,
    List.append_nil]

mutual

/-- **Apart from hooks, a creation makes the nodes that it meets in this order**, each before those below it. -/
theorem bare_create : ∀ (n : Node) (ctx : Context), (n.create ctx).outcome = .ok () →
    Step.bare (Creation.steps (n.create ctx).record) = (n.visits ctx).flatMap Visit.framed
  | ⟨key, spec, hooks, children⟩, ctx, h => by
    have hb := createBelow_ok (create_ok h).2.1
    rw [bare_create_eq h, visits_eq, List.flatMap_cons]
    refine congrArg (Visit.framed _ ++ ·) ?_
    dsimp only at hb ⊢
    split at hb
    · rw [hb.2]
      exact bare_createAll children _ hb.1
    · rw [hb.1]
      rfl

theorem bare_createAll : ∀ (ns : List Node) (ctx : Context), (createAll ns ctx).outcome = .ok () →
    Step.bare (Creation.steps (createAll ns ctx).record) = (visitsAll ns ctx).flatMap Visit.framed
  | [], _, _ => rfl
  | n :: ns, ctx, h => by
    rw [createAll] at h ⊢
    obtain ⟨_, hn, hns⟩ := Traced.outcome_bind_eq_ok_iff.1 h
    rw [Traced.record_bind, hn, Creation.steps_append, Step.bare_append, bare_create n ctx hn,
      bare_createAll ns ctx hns, visitsAll, List.flatMap_append]

end

end Node

namespace Layout

theorem bare_createDevices {root : String} : ∀ {ds : List Device} {ms : List Recording},
    (createDevices root ds ms).outcome = .ok () →
      Step.bare (Creation.steps (createDevices root ds ms).record) = (creationVisits root ds ms).flatMap Visit.framed
  | [], _, _ => rfl
  | d :: ds, ms, h => by
    obtain ⟨hwalk, hrest, -⟩ := createDevices_cons_ok h
    obtain ⟨-, hrecordings, -⟩ := Device.walk_ok hwalk
    rw [createDevices, creationVisits, List.flatMap_append, ← bare_createDevices hrest, Device.visits,
      ← Node.bare_create d.node _ hwalk]
    simp only [Traced.record_bind, Creation.outcome_log, logDebug, Traced.outcome_tell, hwalk, hrecordings,
      Creation.steps_append, Creation.steps_log, List.nil_append, Step.bare_append]

variable {l : Layout} {tree : Value}

/-- **The creation script of a layout without hooks**, in whatever order its devices are made: what it says for the
nodes that the walks of the devices meet. -/
theorem Walked.createScript_eq {root : String} {c : Compiled}
    (h : l.Walked root c (creationVisits root (l.inOrder c.order) []))
    (hc : (l.creation root c.order).outcome = .ok ()) (hhooks : ∀ n ∈ l.nodes, n.hooks = {}) :
    c.createScript = createPreamble ++ String.join ((creationVisits root (l.inOrder c.order) []).map Visit.script) := by
  rw [h.script, ← creationText_flatMap_framed, ← bare_createDevices hc, ← creation, creationText_bare]
  intro snippet hs
  obtain ⟨v, hv, hs⟩ := List.mem_flatMap.1 (h.created.mem_iff.1 hs)
  have hnode := hhooks v.node (h.mem_nodes hv)
  simpa [Visit.creationSteps, hnode] using hs

theorem WellFormed.inOrder_refs (hl : l.WellFormed) : l.inOrder l.refs = l.devices := by
  rw [inOrder, refs, List.filterMap_map]
  refine (List.filterMap_congr (fun d hd => ?_)).trans List.filterMap_some
  exact hl.find?_ref hd

/-- The references of a layout: group by group, the names that a group declares, each where it stood first. -/
theorem refs_of_read (h : (read tree).outcome = .ok l) : l.refs = Group.all.flatMap (fun g =>
    ((g.declarations tree).map Declaration.name).eraseDups.map (fun name => ⟨g.name, name⟩)) := by
  obtain ⟨es, hes, -, hdevices⟩ := devices_of_read h
  rw [refs, hdevices, List.map_flatMap]
  refine List.flatMap_congr (fun g _ => ?_)
  obtain ⟨nodes, hnodes, hlist⟩ := exists_readAs_of_read h g
  rw [← hnodes.keeps.names, ← hlist, nodesOf_of_read h hes, List.map_map, List.map_map]
  rfl

/-- Where no member names a device, metadata asks for no order of the devices. -/
theorem between_eq_nil {m : Entries} (hm : l.metadata = .ok m) (hnames : ∀ n ∈ l.nodes, ∀ (group : Group) (name : String),
    n.spec.membership? = some (group, .text name) → ⟨group.name, name⟩ ∉ l.refs) :
    Order.between l.refs ((Metadata.requirements m).flatMap Requirement.edges) = [] := by
  refine List.eq_nil_iff_forall_not_mem.2 (fun e he => ?_)
  obtain ⟨he, -, hconsumer⟩ := Order.mem_between.1 he
  obtain ⟨d, hd, f, hf, hgroup, hname, -⟩ := (mem_edges_iff hm).1 he
  rw [Node.memberships_eq_filterMap] at hf
  obtain ⟨n, hn, hf⟩ := List.mem_filterMap.1 hf
  refine hnames n (mem_nodes_iff.2 ⟨d, hd, hn⟩) f.1 e.consumer.name (hf.trans ?_) ?_
  · rw [← hname]
  · rw [← hgroup]
    exact hconsumer

end Layout

/-- **Without relations across branches the creation script follows the declaration.**  Where no node has hooks and no member
names an aggregate that is a device of the layout, the devices are made in the order of declaration, and the creation script
goes through the declared tree, each node before the nodes below it: every node that is placed is named once, in a comment
before its own commands, and what comes for the nodes below it comes after these. -/
theorem createScript_follows_declaration {tree : Value} {root : String} {c : Compiled}
    (h : (compile tree root).outcome = .ok c) {l : Layout} (hl : (Layout.read tree).outcome = .ok l)
    (hhooks : ∀ n ∈ l.nodes, n.hooks = {})
    (hnames : ∀ n ∈ l.nodes, ∀ (group : Group) (name : String), n.spec.membership? = some (group, .text name) →
      ⟨group.name, name⟩ ∉ l.refs) :
    c.order = l.refs ∧
      l.refs = Group.all.flatMap (fun g =>
        ((g.declarations tree).map Declaration.name).eraseDups.map (fun name => ⟨g.name, name⟩)) ∧
      ∃ vs : List Visit, vs.map Visit.node = l.placed ∧
        (∀ v ∈ vs, ∃ devices, v.node.spec.actions v.ctx devices = .ok v.commands) ∧
        c.createScript = Layout.createPreamble ++ String.join (vs.map (fun v =>
          "# " ++ Step.title v.node.spec.kind v.node.spec.label ++ "\n" ++ String.join (v.commands.map Action.script))) := by
  obtain ⟨l', hl', hmetadata, hsort, hcreation, -⟩ := compile_ok h
  cases hl.symm.trans hl'
  obtain ⟨l', hl', -, hwalked⟩ := Layout.walked_of_compile h
  cases hl.symm.trans hl'
  have hwell := Layout.wellFormed_of_read hl
  have horder : c.order = l.refs := by
    have hrefs := Order.sort_of_no_edges hwell.nodup (Layout.between_eq_nil hmetadata hnames)
    exact Except.ok.inj ((Requirement.sort_eq_ok hsort).symm.trans hrefs)
  have hscript := hwalked.createScript_eq hcreation hhooks
  have hnodes := hwalked.nodes
  rw [horder, hwell.inOrder_refs] at hscript hnodes
  rw [horder, Layout.creation, hwell.inOrder_refs] at hcreation
  refine ⟨horder, Layout.refs_of_read hl, _, hnodes, fun v hv => ?_, hscript⟩
  obtain ⟨-, devices, hactions, -⟩ := Visit.own_ok (Layout.own_of_mem_creationVisits hcreation v hv)
  exact ⟨devices, hactions⟩

/-- Partitions, a container, subvolumes, a pool with a volume, and a member of a group that is no device. -/
theorem createScript_follows_declaration_of_mixed_tree :
    let tree : Value := .map [
      entry "zpool" (.map [entry "tank" (node "zpool" [entry "datasets" (.map [
        entry "home" (node "zfs_dataset" [entry "zfs_type" (.text "filesystem"), entry "mountpoint" (.text "/home")]),
        entry "swap" (node "zfs_dataset" [entry "zfs_type" (.text "volume"), entry "size" (.text "1G"),
          entry "content" (node "swap" [])])])])]),
      entry "disk" (.map [entry "a" (node "disk" [entry "device" (.text "/dev/sda"), entry "content" (node "table"
        [entry "partitions" (.list [
          node "partition" [entry "content" (node "luks" [entry "name" (.text "crypt"), entry "content" (node "btrfs"
            [entry "subvolumes" (.map [entry "root" (node "btrfs_subvol" [])])])])],
          node "partition" [entry "content" (node "lvm_pv" [entry "vg" (.text "spare")])]])])])])]
    ∃ c l, (compile tree "/mnt").outcome = .ok c ∧ (Layout.read tree).outcome = .ok l ∧
      c.order = [⟨"disk", "a"⟩, ⟨"zpool", "tank"⟩] ∧
      ∃ vs : List Visit, vs.map Visit.node = l.placed ∧
        vs.map (·.node.spec.kind) = [.disk, .table, .partition, .luks, .btrfs, .subvolume, .partition,
          .physicalVolume, .pool, .dataset, .dataset, .swap] ∧
        c.createScript = Layout.createPreamble ++ String.join (vs.map (fun v =>
          "# " ++ Step.title v.node.spec.kind v.node.spec.label ++ "\n" ++ String.join (v.commands.map Action.script))) := by
  intro tree
  have hcompiles : (compile tree "/mnt").outcome.toOption.isSome = true := by decide +kernel
  have hchecked : (Layout.read tree).outcome.toOption.map (fun l =>
      (l.nodes.all (fun n => decide (n.hooks = {}) && n.spec.membership?.all (fun m => Value.same (.text "spare") m.2)),
        l.refs, l.placed.map (·.spec.kind))) =
      some (true, [⟨"disk", "a"⟩, ⟨"zpool", "tank"⟩], [.disk, .table, .partition, .luks, .btrfs, .subvolume, .partition,
        .physicalVolume, .pool, .dataset, .dataset, .swap]) := by decide +kernel
  obtain ⟨c, hc⟩ := Option.isSome_iff_exists.1 hcompiles
  obtain ⟨l, hl, hchecked⟩ := Option.map_eq_some_iff.1 hchecked
  obtain ⟨hnodes, hchecked⟩ := Prod.mk.inj hchecked
  obtain ⟨hrefs, hkinds⟩ := Prod.mk.inj hchecked
  replace hc := eq_ok_of_toOption hc
  replace hl := eq_ok_of_toOption hl
  have hnode (n : Node) (hn : n ∈ l.nodes) := Bool.and_eq_true_iff.1 (List.all_eq_true.1 hnodes n hn)
  obtain ⟨horder, -, vs, hvs, -, hscript⟩ := createScript_follows_declaration hc hl
    (fun n hn => of_decide_eq_true (hnode n hn).1) (fun n hn group name hm => by
      -- the one aggregate that is named is not a device
      have hname := (hnode n hn).2
      rw [hm, Option.all_some, Value.same_text_iff] at hname
      rw [hrefs, Value.text.inj hname]
      simp)
  refine ⟨c, l, hc, hl, horder.trans hrefs, vs, hvs, ?_, hscript⟩
  rw [← hkinds, ← hvs, List.map_map]
  rfl

end Provision
