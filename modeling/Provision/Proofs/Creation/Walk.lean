import Provision.Plan.Creation
import Provision.Proofs.Traced
/-!
# What the creation walk does

A walk meets every node in a context, each before the nodes below it (`Node.visits`).  The effects of a creation are its
commands and the members that it records; all else is comments, hooks and messages.  The effects of a creation that
succeeds are those of its visits, one after the other (`Node.effects_create`).
-/
namespace Provision

/-- A node as a walk meets it: in the context that the nodes above it hand down. -/
structure Visit where
  node : Node
  ctx : Context

/-- The context that a node hands to the nodes below it, if it places them. -/
def Spec.handed? (spec : Spec) (ctx : Context) : Option Context :=
  if spec.places then (spec.inner ctx).toOption else none

theorem Spec.handed?_eq_some_iff {spec : Spec} {ctx inner : Context} :
    spec.handed? ctx = some inner ↔ spec.places = true ∧ spec.inner ctx = .ok inner := by
  unfold handed?
  cases spec.inner ctx <;> cases spec.places <;> simp [Except.toOption]

namespace Node

mutual

/-- The nodes that a walk meets, each before those below it. -/
def visits : Node → Context → List Visit
  | ⟨key, spec, hooks, children⟩, ctx =>
    ⟨⟨key, spec, hooks, children⟩, ctx⟩ :: match spec.handed? ctx with
      | some inner => visitsAll children inner
      | none => []

def visitsAll : List Node → Context → List Visit
  | [], _ => []
  | n :: ns, ctx => visits n ctx ++ visitsAll ns ctx

end

theorem visits_eq (n : Node) (ctx : Context) :
    n.visits ctx = ⟨n, ctx⟩ :: match n.spec.handed? ctx with
      | some inner => visitsAll n.children inner
      | none => [] := by
  cases n
  rw [visits]

end Node

def CreationEvent.isEffect : CreationEvent → Bool
  | .step (.run _) => true
  | .recording _ => true
  | _ => false

namespace Creation

def effects (events : List CreationEvent) : List CreationEvent := events.filter CreationEvent.isEffect

def commands (events : List CreationEvent) : List Action := Step.commands (steps events)

@[simp] theorem effects_append (es fs : List CreationEvent) : effects (es ++ fs) = effects es ++ effects fs :=
  List.filter_append ..

@[simp] theorem effects_nil : effects [] = [] := rfl

@[simp] theorem effects_frame (k : Kind) (label : Value) : effects [.step (.frame k label)] = [] := rfl

@[simp] theorem effects_hook (snippet : String) : effects [.step (.hook snippet)] = [] := rfl

@[simp] theorem effects_map_message (ms : List Message) : effects (ms.map CreationEvent.message) = [] := by
  simp [effects, CreationEvent.isEffect]

@[simp] theorem commands_append (es fs : List CreationEvent) : commands (es ++ fs) = commands es ++ commands fs := by
  simp [commands, steps, Step.commands]

@[simp] theorem recordings_append (es fs : List CreationEvent) :
    recordings (es ++ fs) = recordings es ++ recordings fs := by
  simp [recordings]

theorem commands_flatMap {α : Type} (xs : List α) (f : α → List CreationEvent) :
    commands (xs.flatMap f) = xs.flatMap (fun x => commands (f x)) := by
  induction xs with
  | nil => rfl
  | cons x xs ih => simp [ih]

theorem recordings_flatMap {α : Type} (xs : List α) (f : α → List CreationEvent) :
    recordings (xs.flatMap f) = xs.flatMap (fun x => recordings (f x)) := by
  induction xs with
  | nil => rfl
  | cons x xs ih => simp [ih]

theorem commands_effects (events : List CreationEvent) : commands (effects events) = commands events := by
  induction events with
  | nil => rfl
  | cons e es ih =>
    rw [← List.singleton_append, effects_append, commands_append, commands_append, ih]
    congr 1
    cases e with
    | step s => cases s <;> rfl
    | message m => rfl
    | recording r => rfl

theorem recordings_effects (events : List CreationEvent) : recordings (effects events) = recordings events := by
  induction events with
  | nil => rfl
  | cons e es ih =>
    rw [← List.singleton_append, effects_append, recordings_append, recordings_append, ih]
    congr 1
    cases e with
    | step s => cases s <;> rfl
    | message m => rfl
    | recording r => rfl

end Creation

namespace Visit

def own (v : Visit) : Creation Unit := v.node.spec.create v.ctx v.node.children.isEmpty

def commands (v : Visit) : List Action := Creation.commands v.own.record

def recordings (v : Visit) : List Recording := Creation.recordings v.own.record

end Visit

namespace Creation

@[simp] theorem outcome_log {α : Type} (x : Logged α) : (log x).outcome = x.outcome := rfl

@[simp] theorem effects_log {α : Type} (x : Logged α) : effects (log x).record = [] := effects_map_message _

@[simp] theorem commands_log {α : Type} (x : Logged α) : commands (log x).record = [] := by
  rw [← commands_effects, effects_log]
  rfl

theorem record_forM_run (as : List Action) : (as.forM run).record = as.map (fun a => .step (.run a)) := by
  induction as with
  | nil => rfl
  | cons a as ih =>
    rw [List.forM, Traced.record_bind, ih]
    rfl

@[simp] theorem effects_map_run (as : List Action) :
    effects (as.map (fun a => .step (.run a))) = as.map (fun a => .step (.run a)) := by
  simp [effects, CreationEvent.isEffect]

@[simp] theorem commands_map_run (as : List Action) : commands (as.map (fun a => .step (.run a))) = as := by
  simp [commands, steps, Step.commands]

@[simp] theorem recordings_map_run (as : List Action) : recordings (as.map (fun a => .step (.run a))) = [] := by
  simp [recordings]

theorem effects_remember {group : Group} {name device : Value} (h : (remember group name device).outcome = .ok ()) :
    effects (remember group name device).record = [.recording ⟨group.name, name, device⟩] := by
  unfold remember at h ⊢
  obtain ⟨r, hr, _⟩ := Traced.outcome_bind_eq_ok_iff.1 h
  rw [outcome_log] at hr
  obtain rfl : ⟨group.name, name, device⟩ = r := by
    unfold Recording.record at hr
    obtain ⟨_, _, hr⟩ := Traced.outcome_bind_eq_ok_iff.1 hr
    replace ⟨_, _, hr⟩ := Traced.outcome_bind_eq_ok_iff.1 hr
    split at hr
    · exact Except.ok.inj hr
    · cases hr
  rw [Traced.record_bind, effects_append, effects_log, outcome_log, hr]
  rfl

end Creation

theorem Recording.collect_eq_ok {rs : List Recording} {group : String} {name : Value} {devices : List Value}
    (h : (collect rs group name).outcome = .ok devices) : devices = devicesOf rs group name := by
  unfold collect at h
  split at h
  · cases h
  · dsimp only at h
    split at h
    · replace ⟨_, _, h⟩ := Traced.outcome_bind_eq_ok_iff.1 h
      replace ⟨_, _, h⟩ := Traced.outcome_bind_eq_ok_iff.1 h
      exact (Except.ok.inj h).symm
    · exact (Except.ok.inj h).symm

theorem Value.eq_text_of_asText {v : Value} {s : String} (h : v.asText = .ok s) : v = .text s := by
  cases v <;> simp [asText] at h
  rw [h]

/-- **What an aggregate is made of**: the devices recorded under its name, all of them paths. -/
theorem memberPaths_ok {group : Group} {name : Value} {ctx : Context} {paths : List String}
    (h : (memberPaths group name ctx).outcome = .ok paths) :
    paths.map Value.text = Recording.devicesOf ctx.members group.name name ∧
      Creation.effects (memberPaths group name ctx).record = [] := by
  unfold memberPaths at h ⊢
  obtain ⟨devices, hdevices, h⟩ := Traced.outcome_bind_eq_ok_iff.1 h
  obtain ⟨_, hname, h⟩ := Traced.outcome_bind_eq_ok_iff.1 h
  obtain ⟨paths', hpaths, h⟩ := Traced.outcome_bind_eq_ok_iff.1 h
  obtain ⟨_, _, h⟩ := Traced.outcome_bind_eq_ok_iff.1 h
  obtain rfl : paths' = paths := by simpa using h
  rw [Creation.outcome_log] at hdevices
  rw [Traced.outcome_liftM] at hname
  constructor
  · rw [← Recording.collect_eq_ok hdevices]
    have hsame := (Traced.outcome_mapM_eq_ok_iff.1 hpaths).imp (fun d p hp => Value.eq_text_of_asText hp)
    rw [← List.forall₂_map_right_iff, List.forall₂_eq_eq_eq] at hsame
    exact hsame.symm
  · have hquiet : devices.flatMap (fun _ => ([] : List CreationEvent)) = [] := List.flatMap_eq_nil_iff.2 (fun _ _ => rfl)
    simp [Traced.record_bind, Traced.record_mapM hpaths, hdevices, hname, hpaths, hquiet]

namespace Visit

def recording? (v : Visit) : Option Recording :=
  v.node.spec.membership?.map (fun m => ⟨m.1.name, m.2, v.ctx.device⟩)

theorem prepare_ok {spec : Spec} {ctx : Context} {bare : Bool} {devices : List String}
    (h : (spec.prepare ctx bare).outcome = .ok devices) :
    Creation.effects (spec.prepare ctx bare).record =
        (spec.membership?.map (fun m => CreationEvent.recording ⟨m.1.name, m.2, ctx.device⟩)).toList ∧
      ∀ group name, spec.aggregate? = some (group, name) →
        devices.map Value.text = Recording.devicesOf ctx.members group.name name := by
  unfold Spec.prepare at h ⊢
  cases hm : spec.membership? with
  | some m =>
    obtain ⟨group, name⟩ := m
    simp only [hm] at h ⊢
    obtain ⟨_, hr, _⟩ := Traced.outcome_bind_eq_ok_iff.1 h
    refine ⟨?_, fun g n ha => ?_⟩
    · simp [Creation.effects_remember hr]
    · cases spec <;> simp [Spec.membership?, Spec.aggregate?] at hm ha
  | none =>
    cases ha : spec.aggregate? with
    | some a =>
      obtain ⟨group, name⟩ := a
      simp only [hm, ha] at h ⊢
      obtain ⟨hpaths, heffects⟩ := memberPaths_ok h
      refine ⟨heffects, fun g n e => ?_⟩
      obtain ⟨rfl, rfl⟩ := Prod.mk.inj (Option.some.inj e)
      exact hpaths
    | none =>
      refine ⟨?_, fun g n e => by cases e⟩
      cases spec.announcement? ctx bare with
      | none => rfl
      | some announced =>
        obtain ⟨named, text⟩ := announced
        cases hw : Value.requireWritable named <;> simp [Traced.record_bind, hw]

/-- **A node's own part, unpacked**: its recording if it is a member, and its commands, which for an aggregate are made
from the devices recorded under its name. -/
theorem own_ok {v : Visit} (h : v.own.outcome = .ok ()) :
    v.recordings = v.recording?.toList ∧ ∃ devices, v.node.spec.actions v.ctx devices = .ok v.commands ∧
      ∀ group name, v.node.spec.aggregate? = some (group, name) →
        devices.map Value.text = Recording.devicesOf v.ctx.members group.name name := by
  unfold own Spec.create at h
  obtain ⟨devices, hdevices, h⟩ := Traced.outcome_bind_eq_ok_iff.1 h
  obtain ⟨actions, hactions, h⟩ := Traced.outcome_bind_eq_ok_iff.1 h
  obtain ⟨_, hwritten, _⟩ := Traced.outcome_bind_eq_ok_iff.1 h
  rw [Traced.outcome_liftM] at hactions hwritten
  obtain ⟨heffects, haggregate⟩ := prepare_ok hdevices
  have hown : Creation.effects v.own.record =
      v.recording?.toList.map .recording ++ actions.map (fun a => .step (.run a)) := by
    rw [own, Spec.create]
    simp only [Traced.record_bind, hdevices, Creation.effects_append, heffects, Traced.record_liftM, Traced.outcome_liftM,
      hactions, hwritten, Creation.record_forM_run, Creation.effects_map_run, List.nil_append]
    cases hm : v.node.spec.membership? <;> simp [recording?, hm]
  have hrecordings : v.recordings = v.recording?.toList := by
    rw [recordings, ← Creation.recordings_effects, hown, Creation.recordings_append, Creation.recordings_map_run]
    cases v.recording? <;> rfl
  have hcommands : v.commands = actions := by
    rw [commands, ← Creation.commands_effects, hown, Creation.commands_append, Creation.commands_map_run]
    cases v.recording? <;> rfl
  exact ⟨hrecordings, devices, hcommands ▸ hactions, haggregate⟩

end Visit

namespace Node

def createBelow (n : Node) (ctx : Context) : Creation Unit :=
  if n.spec.places && !n.children.isEmpty then do
    let inner ← n.spec.enter ctx
    createAll n.children inner
  else pure ()

theorem create_eq (n : Node) (ctx : Context) :
    n.create ctx = (do
      Creation.step (.frame n.spec.kind n.spec.label)
      Creation.step (.hook n.hooks.preCreate)
      Visit.own ⟨n, ctx⟩
      createBelow n ctx
      Creation.step (.hook n.hooks.postCreate)
      Value.requireWritable [n.spec.label]
      Creation.log (logDebug ("Built creation commands for " ++ Step.title n.spec.kind n.spec.label))) := by
  obtain ⟨key, spec, hooks, children⟩ := n
  rw [create]
  simp only [Visit.own, createBelow]
  split <;> simp only [bind_assoc, pure_bind]

theorem createBelow_ok {n : Node} {ctx : Context} (h : (createBelow n ctx).outcome = .ok ()) :
    match n.spec.handed? ctx with
    | some inner => (createAll n.children inner).outcome = .ok () ∧
        (createBelow n ctx).record = (createAll n.children inner).record
    | none => (createBelow n ctx).record = [] ∧ (n.spec.places = true → n.children = []) := by
  unfold createBelow at h ⊢
  cases hc : n.children with
  | nil =>
    simp only [List.isEmpty_nil, Bool.not_true, Bool.and_false, Bool.false_eq_true, if_false, createAll]
    split <;> simp
  | cons c cs =>
    cases hp : n.spec.places with
    | false => simp [Spec.handed?, hp]
    | true =>
      simp only [hp, hc, List.isEmpty_cons, Bool.not_false, Bool.and_true, if_true, Traced.outcome_bind_eq_ok_iff] at h ⊢
      obtain ⟨inner, hinner, h⟩ := h
      replace hinner : n.spec.enter ctx = .ok inner := hinner
      simp [Spec.handed?, hp, (Spec.enter_eq_ok_iff.1 hinner).1, hinner, Except.toOption, Traced.record_bind, h]

theorem create_ok {n : Node} {ctx : Context} (h : (n.create ctx).outcome = .ok ()) :
    (Visit.own ⟨n, ctx⟩).outcome = .ok () ∧ (createBelow n ctx).outcome = .ok () ∧
      Value.requireWritable [n.spec.label] = .ok () ∧
      Creation.effects (n.create ctx).record =
        Creation.effects (Visit.own ⟨n, ctx⟩).record ++ Creation.effects (createBelow n ctx).record := by
  rw [create_eq] at h
  simp only [Traced.outcome_bind_eq_ok_iff] at h
  obtain ⟨_, _, _, _, _, hown, _, hbelow, _, _, _, hlabel, _⟩ := h
  rw [Traced.outcome_liftM] at hlabel
  refine ⟨hown, hbelow, hlabel, ?_⟩
  rw [create_eq]
  simp only [Traced.record_bind, Creation.step, Creation.log, Traced.outcome_tell, Traced.record_tell, hown, hbelow, hlabel,
    Traced.outcome_liftM, Traced.record_liftM, Creation.effects_append, Traced.record_mapRecord,
    Creation.effects_map_message, Creation.effects_frame, Creation.effects_hook, List.append_nil, List.nil_append]

mutual

/-- **The effects of a creation that succeeds are those of the nodes that the walk meets**, each created in its
context. -/
theorem effects_create : ∀ (n : Node) (ctx : Context), (n.create ctx).outcome = .ok () →
    Creation.effects (n.create ctx).record = (n.visits ctx).flatMap (fun v => Creation.effects v.own.record) ∧
      ∀ v ∈ n.visits ctx, v.own.outcome = .ok ()
  | ⟨key, spec, hooks, children⟩, ctx, h => by
    obtain ⟨hown, hbelow, -, heffects⟩ := create_ok h
    have hb := createBelow_ok hbelow
    rw [heffects, visits_eq]
    dsimp only at hb ⊢
    split at hb
    · rename_i inner hinner
      obtain ⟨hbo, hbv⟩ := effects_createAll children inner hb.1
      simp only [List.flatMap_cons, hb.2, hbo, List.mem_cons]
      exact ⟨trivial, fun v hv => hv.elim (fun e => e ▸ hown) (hbv v)⟩
    · simp [hb.1, hown]

theorem effects_createAll : ∀ (ns : List Node) (ctx : Context), (createAll ns ctx).outcome = .ok () →
    Creation.effects (createAll ns ctx).record = (visitsAll ns ctx).flatMap (fun v => Creation.effects v.own.record) ∧
      ∀ v ∈ visitsAll ns ctx, v.own.outcome = .ok ()
  | [], ctx, _ => by simp [createAll, visitsAll]
  | n :: ns, ctx, h => by
    rw [createAll] at h ⊢
    obtain ⟨_, hn, hns⟩ := Traced.outcome_bind_eq_ok_iff.1 h
    obtain ⟨hne, hnv⟩ := effects_create n ctx hn
    obtain ⟨hnse, hnsv⟩ := effects_createAll ns ctx hns
    simp only [Traced.record_bind, hn, Creation.effects_append, hne, hnse, visitsAll, List.flatMap_append,
      List.mem_append]
    exact ⟨trivial, fun v hv => hv.elim (hnv v) (hnsv v)⟩

end

end Node

end Provision
