import Provision.Proofs.Creation.Walk
import Provision.Proofs.Layout.WellFormed
/-!
# Devices, created one after the other

Every device of an order is walked once, and sees the members that those before it recorded.  What a device records does
not depend on what it sees (`Device.filterMap_recording?_visits`), so the commands of a creation are a function of the
order alone (`Layout.commands_creation`), and those of a device follow all those of the devices before it
(`Layout.commandsFrom_append`).
-/
namespace Provision

namespace Spec

theorem inner_with_members (spec : Spec) (ctx : Context) (ms : List Recording) :
    spec.inner { ctx with members := ms } = (spec.inner ctx).map (fun inner => { inner with members := ms }) := by
  cases spec
  case partition index _ _ => cases h : DevicePath.partition ctx.device index.toText <;> simp [inner, h] <;> rfl
  all_goals rfl

theorem enter_with_members (spec : Spec) (ctx : Context) (ms : List Recording) :
    spec.enter { ctx with members := ms } = (spec.enter ctx).map (fun inner => { inner with members := ms }) :=
  enter_map (g := fun ctx => { ctx with members := ms }) (by cases spec <;> rfl) (inner_with_members spec ctx ms)

theorem handed?_with_members (spec : Spec) (ctx : Context) (ms : List Recording) :
    spec.handed? { ctx with members := ms } = (spec.handed? ctx).map (fun inner => { inner with members := ms }) := by
  unfold handed?
  rw [inner_with_members]
  cases spec.inner ctx <;> split <;> rfl

end Spec

namespace Visit

def withMembers (ms : List Recording) (v : Visit) : Visit := { v with ctx := { v.ctx with members := ms } }

end Visit

namespace Node

mutual

theorem visits_with_members : ∀ (n : Node) (ctx : Context) (ms : List Recording),
    n.visits { ctx with members := ms } = (n.visits ctx).map (Visit.withMembers ms)
  | ⟨key, spec, hooks, children⟩, ctx, ms => by
    rw [visits_eq, visits_eq]
    dsimp only
    rw [Spec.handed?_with_members]
    cases spec.handed? ctx with
    | none => rfl
    | some inner =>
      simp only [Option.map_some, List.map_cons, visitsAll_with_members children inner ms]
      rfl

theorem visitsAll_with_members : ∀ (ns : List Node) (ctx : Context) (ms : List Recording),
    visitsAll ns { ctx with members := ms } = (visitsAll ns ctx).map (Visit.withMembers ms)
  | [], _, _ => rfl
  | n :: ns, ctx, ms => by
    rw [visitsAll, visitsAll, visits_with_members n, visitsAll_with_members ns, List.map_append]

end

mutual

theorem keeps_of_mem_visits : ∀ (n : Node) (ctx : Context), ∀ v ∈ n.visits ctx,
    v.ctx.parent = ctx.parent ∧ v.ctx.root = ctx.root ∧ v.ctx.members = ctx.members
  | ⟨key, spec, hooks, children⟩, ctx, v, hv => by
    rw [visits_eq] at hv
    rcases List.mem_cons.1 hv with rfl | hv
    · exact ⟨rfl, rfl, rfl⟩
    · dsimp only at hv
      split at hv
      · rename_i inner hinner
        obtain ⟨hp, hr, hm⟩ := Spec.inner_keeps (Spec.handed?_eq_some_iff.1 hinner).2
        rw [← hp, ← hr, ← hm]
        exact keeps_of_mem_visitsAll children inner v hv
      · cases hv

theorem keeps_of_mem_visitsAll : ∀ (ns : List Node) (ctx : Context), ∀ v ∈ visitsAll ns ctx,
    v.ctx.parent = ctx.parent ∧ v.ctx.root = ctx.root ∧ v.ctx.members = ctx.members
  | [], _, _, hv => absurd hv List.not_mem_nil
  | n :: ns, ctx, v, hv => by
    rcases List.mem_append.1 hv with hv | hv
    · exact keeps_of_mem_visits n ctx v hv
    · exact keeps_of_mem_visitsAll ns ctx v hv

end

end Node

namespace Device

def visits (d : Device) (root : String) (ms : List Recording) : List Visit := d.node.visits (d.context root ms)

def commands (d : Device) (root : String) (ms : List Recording) : List Action :=
  (d.visits root ms).flatMap Visit.commands

def recordings (d : Device) (root : String) : List Recording := (d.visits root []).filterMap Visit.recording?

theorem visits_with_members (d : Device) (root : String) (ms : List Recording) :
    d.visits root ms = (d.visits root []).map (Visit.withMembers ms) :=
  Node.visits_with_members d.node (d.context root []) ms

/-- What a device records does not depend on what was recorded before. -/
theorem filterMap_recording?_visits (d : Device) (root : String) (ms : List Recording) :
    (d.visits root ms).filterMap Visit.recording? = d.recordings root := by
  rw [visits_with_members, List.filterMap_map]
  rfl

/-- **The walk of a device that succeeds**: the commands and the recordings of its nodes, one after the other. -/
theorem walk_ok {d : Device} {root : String} {ms : List Recording}
    (h : (d.node.create (d.context root ms)).outcome = .ok ()) :
    Creation.commands (d.node.create (d.context root ms)).record = d.commands root ms ∧
      Creation.recordings (d.node.create (d.context root ms)).record = d.recordings root ∧
      ∀ v ∈ d.visits root ms, v.own.outcome = .ok () := by
  obtain ⟨heffects, hown⟩ := Node.effects_create _ _ h
  refine ⟨?_, ?_, hown⟩
  · rw [← Creation.commands_effects, heffects, Creation.commands_flatMap]
    simp only [Creation.commands_effects]
    rfl
  · rw [← Creation.recordings_effects, heffects, Creation.recordings_flatMap, ← d.filterMap_recording?_visits root ms,
      List.filterMap_eq_flatMap_toList]
    refine List.flatMap_congr (fun v hv => ?_)
    rw [Creation.recordings_effects]
    exact (Visit.own_ok (hown v hv)).1

end Device

namespace Layout

def commandsFrom (root : String) : List Device → List Recording → List Action
  | [], _ => []
  | d :: ds, ms => d.commands root ms ++ commandsFrom root ds (ms ++ d.recordings root)

theorem commandsFrom_append (root : String) : ∀ (ds es : List Device) (ms : List Recording),
    commandsFrom root (ds ++ es) ms =
      commandsFrom root ds ms ++ commandsFrom root es (ms ++ ds.flatMap (·.recordings root))
  | [], es, ms => by simp [commandsFrom]
  | d :: ds, es, ms => by simp [commandsFrom, commandsFrom_append root ds, List.append_assoc]

theorem createDevices_cons_ok {root : String} {d : Device} {ds : List Device} {ms : List Recording}
    (h : (createDevices root (d :: ds) ms).outcome = .ok ()) :
    (d.node.create (d.context root ms)).outcome = .ok () ∧
      (createDevices root ds (ms ++ d.recordings root)).outcome = .ok () ∧
      Creation.commands (createDevices root (d :: ds) ms).record =
        d.commands root ms ++ Creation.commands (createDevices root ds (ms ++ d.recordings root)).record := by
  rw [createDevices] at h ⊢
  obtain ⟨_, _, h⟩ := Traced.outcome_bind_eq_ok_iff.1 h
  obtain ⟨_, hwalk, h⟩ := Traced.outcome_bind_eq_ok_iff.1 h
  obtain ⟨hcommands, hrecordings, -⟩ := Device.walk_ok hwalk
  rw [hrecordings] at h
  refine ⟨hwalk, h, ?_⟩
  simp only [Traced.record_bind, Creation.outcome_log, logDebug, Traced.outcome_tell, hwalk, hrecordings,
    Creation.commands_append, Creation.commands_log, hcommands, List.nil_append]

theorem createDevices_of_append {root : String} : ∀ {ds es : List Device} {ms : List Recording},
    (createDevices root (ds ++ es) ms).outcome = .ok () →
      (createDevices root es (ms ++ ds.flatMap (·.recordings root))).outcome = .ok ()
  | [], _, _, h => by simpa using h
  | _ :: ds, _, _, h => by
    rw [List.flatMap_cons, ← List.append_assoc]
    exact createDevices_of_append (createDevices_cons_ok h).2.1

theorem walk_of_mem {root : String} {ds : List Device} {ms : List Recording}
    (h : (createDevices root ds ms).outcome = .ok ())
    {d : Device} (hd : d ∈ ds) : ∃ ms', (d.node.create (d.context root ms')).outcome = .ok () := by
  obtain ⟨before, after, rfl⟩ := List.append_of_mem hd
  exact ⟨_, (createDevices_cons_ok (createDevices_of_append h)).1⟩

theorem commands_createDevices {root : String} : ∀ {ds : List Device} {ms : List Recording},
    (createDevices root ds ms).outcome = .ok () →
    Creation.commands (createDevices root ds ms).record = commandsFrom root ds ms
  | [], _, _ => rfl
  | _ :: ds, _, h => by
    obtain ⟨-, hrest, hcommands⟩ := createDevices_cons_ok h
    rw [hcommands, commands_createDevices hrest, commandsFrom]

/-- **The commands of a creation that succeeds** are those of its devices, in their order. -/
theorem commands_creation {l : Layout} {root : String} {order : List DeviceRef}
    (h : (l.creation root order).outcome = .ok ()) :
    Creation.commands (l.creation root order).record = commandsFrom root (l.inOrder order) [] :=
  commands_createDevices h

end Layout

/-- **A layout that compiles, unpacked**: it was read, its metadata gave the order, and its creation in this order gave the
creation script. -/
theorem compile_ok {tree : Value} {root : String} {c : Compiled} (h : (compile tree root).outcome = .ok c) :
    ∃ l, (Layout.read tree).outcome = .ok l ∧ l.metadata = .ok c.metadata ∧
      Requirement.sort (Metadata.requirements c.metadata) l.refs = .ok c.order ∧
      (l.creation root c.order).outcome = .ok () ∧
      c.createScript = Layout.createPreamble ++ creationText (Creation.steps (l.creation root c.order).record) := by
  unfold compile at h
  simp only [Traced.outcome_bind_eq_ok_iff, Traced.outcome_liftM, Traced.outcome_pure, Except.ok.injEq] at h
  obtain ⟨l, hl, m, hm, order, horder, _, _, script, hscript, _, _, _, _, _, _, _, _, rfl⟩ := h
  unfold Layout.order at horder
  simp only [Traced.outcome_bind_eq_ok_iff, Traced.outcome_liftM, Traced.outcome_pure, Except.ok.injEq] at horder
  obtain ⟨order', hsort, _, _, rfl⟩ := horder
  unfold Layout.createScript Layout.stepsOf at hscript
  simp only [Traced.outcome_bind_eq_ok_iff, Traced.outcome_pure, Except.ok.injEq] at hscript
  obtain ⟨steps, hsteps, rfl⟩ := hscript
  cases hc : (l.creation root order').outcome with
  | error e => simp [hc, Except.map] at hsteps
  | ok u =>
    obtain rfl : Creation.steps (l.creation root order').record = steps := by simpa [hc, Except.map] using hsteps
    exact ⟨l, hl, hm, hsort, hc, rfl⟩

end Provision
