import Provision.Proofs.Layout.Hooks
import Provision.Proofs.Plan
import Provision.Proofs.Walks
/-!
# What hooks change

Every walk but creation and mounting passes hooks by, and these two write a hook where it stands and look at none.  So a
layout with other hooks has the same plan but for the hooks among its steps (`Layout.plan_mapHooks`), and a layout
without its hooks the same scripts but for their blocks (`hooks_confined`).
-/
namespace Provision

open Value (entry node)

namespace Step

variable {α : Type}

def mapHook (g : String → String) : Step α → Step α
  | hook snippet => hook (g snippet)
  | s => s

theorem map_mapHook_id (ss : List (Step α)) : ss.map (mapHook id) = ss :=
  (List.map_congr_left fun s _ => by cases s <;> rfl).trans (List.map_id' ss)

theorem map_mapHook_run (g : String → String) (as : List α) : (as.map run).map (mapHook g) = as.map run := by
  rw [List.map_map]
  rfl

end Step

namespace Hooks

def map (g h : String → String) (k : Hooks) : Hooks := ⟨g k.preCreate, g k.postCreate, h k.preMount, h k.postMount⟩

end Hooks

namespace CreationEvent

def mapHook (g : String → String) : CreationEvent → CreationEvent
  | step s => step (s.mapHook g)
  | e => e

end CreationEvent

namespace Traced

variable {ω ω' α β : Type}

theorem mapRecord_bind (h : ω → ω') (x : Traced ω α) (f : α → Traced ω β) :
    (x >>= f).mapRecord h = x.mapRecord h >>= fun a => (f a).mapRecord h := by
  obtain ⟨r, o⟩ := x
  cases o with
  | error e => rfl
  | ok a =>
    change (⟨(r ++ (f a).record).map h, (f a).outcome⟩ : Traced ω' β) = ⟨r.map h ++ (f a).record.map h, (f a).outcome⟩
    rw [List.map_append]

theorem mapRecord_eq_self {h : ω → ω} {x : Traced ω α} (hx : ∀ w ∈ x.record, h w = w) : x.mapRecord h = x := by
  obtain ⟨r, o⟩ := x
  change (⟨r.map h, o⟩ : Traced ω α) = ⟨r, o⟩
  rw [(List.map_congr_left hx).trans (List.map_id' r)]

end Traced

namespace Creation

theorem steps_mapHook (g : String → String) (es : List CreationEvent) :
    steps (es.map (CreationEvent.mapHook g)) = (steps es).map (Step.mapHook g) := by
  rw [steps, steps, List.filterMap_map, List.map_filterMap]
  refine List.filterMap_congr fun e _ => ?_
  cases e <;> rfl

theorem recordings_mapHook (g : String → String) (es : List CreationEvent) :
    recordings (es.map (CreationEvent.mapHook g)) = recordings es := by
  rw [recordings, recordings, List.filterMap_map]
  refine List.filterMap_congr fun e _ => ?_
  cases e <;> rfl

/-- A creation that takes no hook for a step. -/
def Hookless {α : Type} (x : Creation α) : Prop := ∀ g, ∀ e ∈ x.record, e.mapHook g = e

namespace Hookless

variable {α β : Type}

theorem mapRecord {x : Creation α} (h : Hookless x) (g : String → String) : x.mapRecord (CreationEvent.mapHook g) = x :=
  Traced.mapRecord_eq_self (h g)

theorem pure (a : α) : Hookless (Pure.pure a) := fun _ _ he => nomatch he

theorem liftM (x : Except Fault α) : Hookless (liftM x : Creation α) := fun _ _ he => nomatch he

theorem log (x : Logged α) : Hookless (Creation.log x) := by
  intro g e he
  obtain ⟨m, -, rfl⟩ := List.mem_map.1 he
  rfl

theorem bind {x : Creation α} {f : α → Creation β} (hx : Hookless x) (hf : ∀ a, Hookless (f a)) : Hookless (x >>= f) := by
  intro g e he
  obtain he | ⟨a, -, he⟩ := Traced.mem_record_bind_iff.1 he
  · exact hx g e he
  · exact hf a g e he

theorem mapM {f : α → Creation β} (hf : ∀ a, Hookless (f a)) (xs : List α) : Hookless (xs.mapM f) := by
  intro g e he
  obtain ⟨x, -, he⟩ := Traced.exists_of_mem_record_mapM he
  exact hf x g e he

theorem remember (group : Group) (name device : Value) : Hookless (Creation.remember group name device) := by
  refine .bind (.log _) fun r => fun g e he => ?_
  rw [List.mem_singleton.1 he]
  rfl

theorem memberPaths (group : Group) (name : Value) (ctx : Context) : Hookless (memberPaths group name ctx) := by
  refine .bind (.log _) fun devices => .bind (.liftM _) fun _ => ?_
  exact .bind (.mapM (fun d => .liftM d.asText) devices) fun paths => .bind (.log _) fun _ => .pure _

theorem prepare (spec : Spec) (ctx : Context) (bare : Bool) : Hookless (spec.prepare ctx bare) := by
  unfold Spec.prepare
  split
  · exact .bind (.remember _ _ _) fun _ => .pure _
  · exact .memberPaths _ _ _
  · split
    · exact .bind (.liftM _) fun _ => .bind (.log _) fun _ => .pure _
    · exact .pure _

theorem own (v : Visit) : Hookless v.own := by
  refine .bind (.prepare _ _ _) fun devices => .bind (.liftM _) fun actions => .bind (.liftM _) fun _ => fun g e he => ?_
  rw [Creation.record_forM_run] at he
  obtain ⟨a, -, rfl⟩ := List.mem_map.1 he
  rfl

end Hookless

end Creation

namespace Fragment

variable {σ τ μ : Type}

def mapActivation (g : σ → τ) (f : Fragment σ μ) : Fragment τ μ := ⟨f.activation.map g, f.mounts⟩

theorem add_mapActivation (g : σ → τ) (acc f : Fragment σ μ) :
    (acc.mapActivation g).add (f.mapActivation g) = mapActivation g <$> acc.add f := by
  simp [add, mapActivation]

end Fragment

/-! ## The walks -/

namespace Node

theorem isEmpty_mapHooksAll (f : Hooks → Hooks) (ns : List Node) : (mapHooksAll f ns).isEmpty = ns.isEmpty := by
  rw [mapHooksAll_eq_map, List.isEmpty_map]

section

variable {g h : String → String}

mutual

/-- **The creation of a node with other hooks** has the same steps but for them. -/
theorem create_mapHooks : ∀ (n : Node) (ctx : Context),
    (n.mapHooks (Hooks.map g h)).create ctx = (n.create ctx).mapRecord (CreationEvent.mapHook g)
  | ⟨key, spec, hooks, children⟩, ctx => by
    have hstep (s : Step Action) : (Creation.step s).mapRecord (CreationEvent.mapHook g) = Creation.step (s.mapHook g) := rfl
    have hbelow : createBelow (mapHooks (Hooks.map g h) ⟨key, spec, hooks, children⟩) ctx =
        (createBelow ⟨key, spec, hooks, children⟩ ctx).mapRecord (CreationEvent.mapHook g) := by
      simp only [createBelow, mapHooks, isEmpty_mapHooksAll]
      split
      · rw [Traced.mapRecord_bind]
        exact bind_congr fun inner => createAll_mapHooks children inner
      · rfl
    have hown : Visit.own ⟨mapHooks (Hooks.map g h) ⟨key, spec, hooks, children⟩, ctx⟩ =
        Visit.own ⟨⟨key, spec, hooks, children⟩, ctx⟩ := by
      rw [Visit.own, Visit.own, mapHooks, isEmpty_mapHooksAll]
    rw [create_eq, create_eq]
    simp only [Traced.mapRecord_bind, hstep, (Creation.Hookless.own _).mapRecord, (Creation.Hookless.log _).mapRecord,
      hbelow, hown]
    simp only [mapHooks]
    rfl

theorem createAll_mapHooks : ∀ (ns : List Node) (ctx : Context),
    createAll (mapHooksAll (Hooks.map g h) ns) ctx = (createAll ns ctx).mapRecord (CreationEvent.mapHook g)
  | [], _ => rfl
  | n :: ns, ctx => by
    rw [mapHooksAll, createAll, createAll, Traced.mapRecord_bind, create_mapHooks n ctx]
    exact bind_congr fun _ => createAll_mapHooks ns ctx

end

mutual

/-- **The mount fragment of a node with other hooks** has the same steps but for them, and the same mounts. -/
theorem mount_mapHooks : ∀ (n : Node) (ctx : Context),
    (n.mapHooks (Hooks.map g h)).mount ctx = Fragment.mapActivation (Step.mapHook h) <$> n.mount ctx
  | ⟨key, spec, hooks, children⟩, ctx => by
    have hbelow : mountBelow (mapHooks (Hooks.map g h) ⟨key, spec, hooks, children⟩) ctx =
        Fragment.mapActivation (Step.mapHook h) <$> mountBelow ⟨key, spec, hooks, children⟩ ctx := by
      simp only [mountBelow, mapHooks, isEmpty_mapHooksAll]
      split
      · rw [map_bind]
        exact bind_congr fun inner => mountAll_mapHooks children inner .empty
      · rfl
    rw [mount_eq, mount_eq, hbelow]
    simp only [bind_map_left, map_bind, map_pure]
    refine bind_congr fun below => bind_congr fun own => bind_congr fun _ => ?_
    simp only [mapHooks, Fragment.mapActivation, List.map_append, Step.map_mapHook_run]
    rfl

theorem mountAll_mapHooks : ∀ (ns : List Node) (ctx : Context) (acc : MountFragment),
    mountAll (mapHooksAll (Hooks.map g h) ns) ctx (acc.mapActivation (Step.mapHook h)) =
      Fragment.mapActivation (Step.mapHook h) <$> mountAll ns ctx acc
  | [], _, _ => rfl
  | n :: ns, ctx, acc => by
    rw [mapHooksAll, mountAll, mountAll, mount_mapHooks n ctx, bind_map_left, map_bind]
    refine bind_congr fun below => ?_
    rw [Fragment.add_mapActivation, bind_map_left, map_bind]
    exact bind_congr fun acc => mountAll_mapHooks ns ctx acc

end

end

section

variable {f : Hooks → Hooks}

mutual

theorem facts_mapHooks : ∀ (n : Node) (ctx : Context), (n.mapHooks f).facts ctx = n.facts ctx
  | ⟨key, spec, hooks, children⟩, ctx => by
    have hbelow : factsAll (mapHooksAll f children) = factsAll children := funext (factsAll_mapHooks children)
    rw [mapHooks, facts, facts, isEmpty_mapHooksAll, hbelow]

theorem factsAll_mapHooks : ∀ (ns : List Node) (ctx : Context), factsAll (mapHooksAll f ns) ctx = factsAll ns ctx
  | [], _ => rfl
  | n :: ns, ctx => by rw [mapHooksAll, factsAll, factsAll, facts_mapHooks n, factsAll_mapHooks ns]

end

theorem checkArrayPath_mapHooks : ∀ n : Node, (n.mapHooks f).checkArrayPath = n.checkArrayPath
  | ⟨_, spec, _, []⟩ | ⟨_, spec, _, _ :: _⟩ => by cases spec <;> rfl

mutual

theorem tools_mapHooks : ∀ n : Node, (n.mapHooks f).tools = n.tools
  | ⟨key, spec, hooks, children⟩ => by
    have hpath := checkArrayPath_mapHooks (f := f) ⟨key, spec, hooks, children⟩
    rw [mapHooks] at hpath
    rw [mapHooks, tools, tools, toolsAll_mapHooks children, hpath]

theorem toolsAll_mapHooks : ∀ ns : List Node, toolsAll (mapHooksAll f ns) = toolsAll ns
  | [] => rfl
  | n :: ns => by rw [mapHooksAll, toolsAll, toolsAll, tools_mapHooks n, toolsAll_mapHooks ns]

end

mutual

theorem memberships_mapHooks : ∀ n : Node, (n.mapHooks f).memberships = n.memberships
  | ⟨key, spec, hooks, children⟩ => by rw [mapHooks, memberships, memberships, membershipsAll_mapHooks children]

theorem membershipsAll_mapHooks : ∀ ns : List Node, membershipsAll (mapHooksAll f ns) = membershipsAll ns
  | [] => rfl
  | n :: ns => by rw [mapHooksAll, membershipsAll, membershipsAll, memberships_mapHooks n, membershipsAll_mapHooks ns]

end

theorem metadata_mapHooks (n : Node) (parent : Option DeviceRef) : (n.mapHooks f).metadata parent = n.metadata parent := by
  rw [metadata, metadata, memberships_mapHooks, checkArrayPath_mapHooks]

end

end Node

namespace Device

@[simp] theorem ref_mapHooks (f : Hooks → Hooks) (d : Device) : (d.mapHooks f).ref = d.ref := by
  rw [ref, ref, mapHooks, Node.key_mapHooks]

@[simp] theorem context_mapHooks (f : Hooks → Hooks) (d : Device) (root : String) (members : List Recording) :
    (d.mapHooks f).context root members = d.context root members := by
  rw [context, context, ref_mapHooks]

end Device

namespace Layout

section

variable {f : Hooks → Hooks} {g h : String → String}

theorem refs_mapHooks (l : Layout) : (l.mapHooks f).refs = l.refs := by
  rw [refs, refs, mapHooks, List.map_map]
  exact List.map_congr_left fun d _ => d.ref_mapHooks f

theorem metadata_mapHooks (l : Layout) : (l.mapHooks f).metadata = l.metadata := by
  have hdevice (d : Device) : (d.mapHooks f).node.metadata (some d.ref) = d.node.metadata (some d.ref) :=
    Node.metadata_mapHooks d.node _
  rw [metadata, metadata, mapHooks, List.mapM_map]
  simp only [Function.comp_def, Device.ref_mapHooks, hdevice]

theorem facts_mapHooks (l : Layout) : (l.mapHooks f).facts = l.facts := by
  have hdevice (d : Device) : (d.mapHooks f).node.facts { parent := some d.ref } = d.node.facts { parent := some d.ref } :=
    Node.facts_mapHooks d.node _
  rw [facts, facts, mapHooks, List.mapM_map]
  simp only [Function.comp_def, Device.ref_mapHooks, hdevice]

theorem tools_mapHooks (l : Layout) : (l.mapHooks f).tools = l.tools := by
  have hdevice (d : Device) : (d.mapHooks f).node.tools = d.node.tools := Node.tools_mapHooks d.node
  rw [tools, tools, mapHooks, List.mapM_map]
  simp only [Function.comp_def, hdevice]

theorem inOrder_mapHooks (l : Layout) (order : List DeviceRef) :
    (l.mapHooks f).inOrder order = (l.inOrder order).map (Device.mapHooks f) := by
  have href (r : DeviceRef) : (fun d : Device => d.ref == r) ∘ Device.mapHooks f = fun d => d.ref == r :=
    funext fun d => by rw [Function.comp_apply, Device.ref_mapHooks]
  simp only [inOrder, mapHooks, List.find?_map, href, List.map_filterMap]

theorem createDevices_mapHooks (root : String) : ∀ (ds : List Device) (members : List Recording),
    createDevices root (ds.map (Device.mapHooks (Hooks.map g h))) members =
      (createDevices root ds members).mapRecord (CreationEvent.mapHook g)
  | [], _ => rfl
  | d :: ds, members => by
    have hcreate (ctx : Context) : (d.mapHooks (Hooks.map g h)).node.create ctx =
        (d.node.create ctx).mapRecord (CreationEvent.mapHook g) := Node.create_mapHooks d.node ctx
    rw [List.map_cons, createDevices, createDevices]
    simp only [Traced.mapRecord_bind, (Creation.Hookless.log _).mapRecord, Device.ref_mapHooks,
      Device.context_mapHooks, hcreate]
    refine bind_congr fun _ => bind_congr fun _ => ?_
    rw [Traced.record_mapRecord, Creation.recordings_mapHook]
    exact createDevices_mapHooks root ds _

theorem creationSteps_mapHooks (l : Layout) (root : String) (order : List DeviceRef) :
    (l.mapHooks (Hooks.map g h)).creationSteps root order = List.map (Step.mapHook g) <$> l.creationSteps root order := by
  rw [creationSteps, creationSteps, stepsOf, stepsOf, creation, creation, inOrder_mapHooks, createDevices_mapHooks]
  simp only [Traced.mapRecord, Creation.steps_mapHook]
  cases (createDevices root (l.inOrder order) []).outcome <;> rfl

theorem mountDevices_mapHooks (root : String) : ∀ (ds : List Device) (acc : MountFragment),
    mountDevices root (ds.map (Device.mapHooks (Hooks.map g h))) (acc.mapActivation (Step.mapHook h)) =
      Fragment.mapActivation (Step.mapHook h) <$> mountDevices root ds acc
  | [], _ => rfl
  | d :: ds, acc => by
    have hmount (ctx : Context) : (d.mapHooks (Hooks.map g h)).node.mount ctx =
        Fragment.mapActivation (Step.mapHook h) <$> d.node.mount ctx := Node.mount_mapHooks d.node ctx
    rw [List.map_cons, mountDevices, mountDevices, Device.context_mapHooks, hmount, bind_map_left, map_bind]
    refine bind_congr fun f => ?_
    rw [Fragment.add_mapActivation, bind_map_left, map_bind]
    exact bind_congr fun acc => mountDevices_mapHooks root ds acc

theorem mountFragment_mapHooks (l : Layout) (root : String) (order : List DeviceRef) :
    (l.mapHooks (Hooks.map g h)).mountFragment root order =
      Fragment.mapActivation (Step.mapHook h) <$> l.mountFragment root order := by
  rw [mountFragment, mountFragment, inOrder_mapHooks]
  exact mountDevices_mapHooks root _ .empty

end

end Layout

namespace Plan

def mapHooks (g h : String → String) (p : Plan) : Plan :=
  { p with creation := p.creation.map (Step.mapHook g), fragment := p.fragment.mapActivation (Step.mapHook h) }

end Plan

/-- **The plan of a layout with other hooks** is the same but for them. -/
theorem Layout.plan_mapHooks (g h : String → String) (l : Layout) (root : String) :
    (l.mapHooks (Hooks.map g h)).plan root = Plan.mapHooks g h <$> l.plan root := by
  rw [plan, plan, metadata_mapHooks, refs_mapHooks, facts_mapHooks, tools_mapHooks]
  simp only [creationSteps_mapHooks, mountFragment_mapHooks, Traced.outcome_map, bind_map_left, map_bind, map_pure]
  rfl

/-! ## The blocks of hooks -/

/-- **A script of nodes and the same script without its hook blocks**: for every node its head, the block of one hook,
its own commands, those of the nodes that it holds, and the block of the other hook. -/
inductive Unhooks (pre post : Hooks → String) (head : Node → String) : List Node → String → String → Prop
  | nil : Unhooks pre post head [] "" ""
  | cons {n : Node} {ns held : List Node} {own below below₀ rest rest₀ : String} (hheld : held = [] ∨ held = n.children)
      (hbelow : Unhooks pre post head held below below₀) (hrest : Unhooks pre post head ns rest rest₀) :
      Unhooks pre post head (n :: ns)
        (head n ++ hookScript (pre n.hooks) ++ own ++ below ++ hookScript (post n.hooks) ++ rest)
        (head n ++ own ++ below₀ ++ rest₀)

namespace Step

variable {α : Type}

def text (command : α → String) (steps : List (Step α)) : String := String.join (steps.map (script command))

theorem text_append (command : α → String) (ss ts : List (Step α)) :
    text command (ss ++ ts) = text command ss ++ text command ts := by
  rw [text, List.map_append, String.join_append]
  rfl

abbrev unhooked (steps : List (Step α)) : List (Step α) := steps.map (mapHook fun _ => "")

theorem text_frame (command : α → String) (kind : Kind) (label : Value) :
    text command [frame kind label] = "# " ++ title kind label ++ "\n" := by
  simp [text, script, String.join_cons]

theorem text_hook (command : α → String) (snippet : String) : text command [hook snippet] = hookScript snippet := by
  simp [text, script, String.join_cons]

/-- The steps of a node: what comes first, and its commands and the steps below it between two hooks. -/
def around (first : List (Step α)) (before : String) (own : List α) (below : List (Step α)) (after : String) :
    List (Step α) :=
  first ++ [hook before] ++ own.map run ++ below ++ [hook after]

variable (first below : List (Step α)) (own : List α) (before after : String)

theorem text_around (command : α → String) : text command (around first before own below after) =
    text command first ++ hookScript before ++ text command (own.map run) ++ text command below ++ hookScript after := by
  simp only [around, text_append, text_hook]

theorem unhooked_around :
    unhooked (around first before own below after) = around (unhooked first) "" own (unhooked below) "" := by
  simp only [around, unhooked, List.map_append, map_mapHook_run]
  rfl

end Step

namespace Unhooks

variable {pre post : Hooks → String} {head : Node → String} {α : Type} {command : α → String}

theorem append {ns ms : List Node} {s s₀ t t₀ : String} (h : Unhooks pre post head ns s s₀)
    (h' : Unhooks pre post head ms t t₀) :
    Unhooks pre post head (ns ++ ms) (s ++ t) (s₀ ++ t₀) := by
  induction h with
  | nil =>
    rw [String.empty_append, String.empty_append]
    exact h'
  | cons hheld hbelow _ _ ih =>
    have hassoc (a b c : String) : a ++ b ++ c = a ++ (b ++ c) := String.append_assoc
    rw [List.cons_append, hassoc _ _ t, hassoc _ _ t₀]
    exact .cons hheld hbelow ih

theorem append_steps {ns ms : List Node} {ss ts : List (Step α)}
    (h : Unhooks pre post head ns (Step.text command ss) (Step.text command (Step.unhooked ss)))
    (h' : Unhooks pre post head ms (Step.text command ts) (Step.text command (Step.unhooked ts))) :
    Unhooks pre post head (ns ++ ms) (Step.text command (ss ++ ts)) (Step.text command (Step.unhooked (ss ++ ts))) := by
  rw [Step.text_append, Step.unhooked, List.map_append, Step.text_append]
  exact h.append h'

theorem of_steps {n : Node} {f below : List (Step α)} {own : List α} {held : List Node}
    (hframe : Step.text command f = head n)
    (hbare : Step.unhooked f = f) (hheld : held = [] ∨ held = n.children)
    (hbelow : Unhooks pre post head held (Step.text command below) (Step.text command (Step.unhooked below))) :
    Unhooks pre post head [n] (Step.text command (Step.around f (pre n.hooks) own below (post n.hooks)))
      (Step.text command (Step.unhooked (Step.around f (pre n.hooks) own below (post n.hooks)))) := by
  have htext : Step.text command (Step.around f (pre n.hooks) own below (post n.hooks)) =
      head n ++ hookScript (pre n.hooks) ++ Step.text command (own.map .run) ++ Step.text command below ++
        hookScript (post n.hooks) ++ "" := by
    rw [Step.text_around, hframe, String.append_empty]
  have hbared : Step.text command (Step.unhooked (Step.around f (pre n.hooks) own below (post n.hooks))) =
      head n ++ Step.text command (own.map .run) ++ Step.text command (Step.unhooked below) ++ "" := by
    rw [Step.unhooked_around, hbare, Step.text_around, hframe, show hookScript "" = "" from if_pos rfl]
    simp only [String.append_empty]
  rw [htext, hbared]
  exact .cons hheld hbelow .nil

end Unhooks

namespace Node

def comment (n : Node) : String := "# " ++ Step.title n.spec.kind n.spec.label ++ "\n"

abbrev UnhooksCreation : List Node → String → String → Prop := Unhooks Hooks.preCreate Hooks.postCreate comment

abbrev UnhooksActivation : List Node → String → String → Prop := Unhooks Hooks.preMount Hooks.postMount fun _ => ""

mutual

theorem unhooks_create : ∀ (n : Node) (ctx : Context), (n.create ctx).outcome = .ok () →
    UnhooksCreation [n] (creationText (Creation.steps (n.create ctx).record))
      (creationText (Step.unhooked (Creation.steps (n.create ctx).record)))
  | ⟨key, spec, hooks, children⟩, ctx, h => by
    obtain ⟨hown, hbelow, -⟩ := create_ok h
    have hb := createBelow_ok hbelow
    have hsteps : Creation.steps (create ⟨key, spec, hooks, children⟩ ctx).record =
        [.frame spec.kind spec.label] ++ [.hook hooks.preCreate] ++
          (Visit.commands ⟨⟨key, spec, hooks, children⟩, ctx⟩).map .run ++
          Creation.steps (createBelow ⟨key, spec, hooks, children⟩ ctx).record ++ [.hook hooks.postCreate] := by
      rw [steps_create h, body, Traced.record_bind, hown, Creation.steps_append, Visit.steps_own hown]
      simp only [List.append_assoc, List.cons_append, List.nil_append]
    rw [hsteps]
    cases hhanded : spec.handed? ctx with
    | some inner =>
      simp only [hhanded] at hb
      exact .of_steps (Step.text_frame _ _ _) rfl (.inr rfl) (hb.2 ▸ unhooks_createAll children inner hb.1)
    | none =>
      simp only [hhanded] at hb
      exact .of_steps (Step.text_frame _ _ _) rfl (.inl rfl) (hb.1 ▸ .nil)

theorem unhooks_createAll : ∀ (ns : List Node) (ctx : Context), (createAll ns ctx).outcome = .ok () →
    UnhooksCreation ns (creationText (Creation.steps (createAll ns ctx).record))
      (creationText (Step.unhooked (Creation.steps (createAll ns ctx).record)))
  | [], _, _ => .nil
  | n :: ns, ctx, h => by
    rw [createAll] at h ⊢
    obtain ⟨_, hn, hns⟩ := Traced.outcome_bind_eq_ok_iff.1 h
    rw [Traced.record_bind, hn, Creation.steps_append]
    exact (unhooks_create n ctx hn).append_steps (unhooks_createAll ns ctx hns)

end

mutual

theorem unhooks_mount : ∀ (n : Node) (ctx : Context) (f : MountFragment), (n.mount ctx).outcome = .ok f →
    UnhooksActivation [n] (activationText f.activation) (activationText (Step.unhooked f.activation))
  | ⟨key, spec, hooks, children⟩, ctx, f, h => by
    rw [mount_eq] at h
    simp only [Traced.outcome_bind_eq_ok_iff, Traced.outcome_pure, Except.ok.injEq] at h
    obtain ⟨below, hbelow, own, -, _, -, rfl⟩ := h
    have hb := mountBelow_ok hbelow
    cases hhanded : spec.handed? ctx with
    | some inner =>
      simp only [hhanded] at hb
      obtain ⟨steps, hsteps, hunhooks⟩ := unhooks_mountAll children inner .empty below hb
      rw [hsteps]
      exact Unhooks.of_steps (f := []) rfl rfl (.inr rfl) hunhooks
    | none =>
      simp only [hhanded] at hb
      rw [hb]
      exact Unhooks.of_steps (f := []) rfl rfl (.inl rfl) .nil

theorem unhooks_mountAll : ∀ (ns : List Node) (ctx : Context) (acc f : MountFragment),
    (mountAll ns ctx acc).outcome = .ok f →
    ∃ steps, f.activation = acc.activation ++ steps ∧
      UnhooksActivation ns (activationText steps) (activationText (Step.unhooked steps))
  | [], _, acc, f, h => by
    obtain rfl := Except.ok.inj h
    exact ⟨[], (List.append_nil _).symm, .nil⟩
  | n :: ns, ctx, acc, f, h => by
    rw [mountAll] at h
    obtain ⟨fn, hn, h⟩ := Traced.outcome_bind_eq_ok_iff.1 h
    obtain ⟨acc', hacc, h⟩ := Traced.outcome_bind_eq_ok_iff.1 h
    rw [Fragment.outcome_add, Except.ok.injEq] at hacc
    obtain ⟨steps, hsteps, hunhooks⟩ := unhooks_mountAll ns ctx acc' f h
    exact ⟨fn.activation ++ steps, by rw [hsteps, ← hacc, List.append_assoc],
      (unhooks_mount n ctx fn hn).append_steps hunhooks⟩

end

end Node

namespace Layout

theorem unhooks_createDevices {root : String} : ∀ {ds : List Device} {members : List Recording},
    (createDevices root ds members).outcome = .ok () →
      Node.UnhooksCreation (ds.map Device.node) (creationText (Creation.steps (createDevices root ds members).record))
        (creationText (Step.unhooked (Creation.steps (createDevices root ds members).record)))
  | [], _, _ => .nil
  | d :: ds, members, h => by
    rw [createDevices] at h ⊢
    obtain ⟨_, hlog, h⟩ := Traced.outcome_bind_eq_ok_iff.1 h
    obtain ⟨_, hd, hds⟩ := Traced.outcome_bind_eq_ok_iff.1 h
    rw [Traced.record_bind, hlog, Creation.steps_append, Creation.steps_log, List.nil_append, Traced.record_bind, hd,
      Creation.steps_append]
    exact (Node.unhooks_create d.node _ hd).append_steps (unhooks_createDevices hds)

theorem unhooks_mountDevices {root : String} : ∀ {ds : List Device} {acc f : MountFragment},
    (mountDevices root ds acc).outcome = .ok f → ∃ steps, f.activation = acc.activation ++ steps ∧
      Node.UnhooksActivation (ds.map Device.node) (activationText steps) (activationText (Step.unhooked steps))
  | [], acc, f, h => by
    obtain rfl := Except.ok.inj h
    exact ⟨[], (List.append_nil _).symm, .nil⟩
  | d :: ds, acc, f, h => by
    rw [mountDevices] at h
    obtain ⟨fd, hd, h⟩ := Traced.outcome_bind_eq_ok_iff.1 h
    obtain ⟨acc', hacc, h⟩ := Traced.outcome_bind_eq_ok_iff.1 h
    rw [Fragment.outcome_add, Except.ok.injEq] at hacc
    obtain ⟨steps, hsteps, hunhooks⟩ := unhooks_mountDevices h
    exact ⟨fd.activation ++ steps, by rw [hsteps, ← hacc, List.append_assoc],
      (Node.unhooks_mount d.node _ fd hd).append_steps hunhooks⟩

end Layout

/-! ## Layouts that are the same but for hooks -/

namespace Kind

def createHooks : List String := ["preCreateHook", "postCreateHook"]

def mountHooks : List String := ["preMountHook", "postMountHook"]

end Kind

theorem Hooks.without_hookOptions : without Kind.hookOptions = map (fun _ => "") (fun _ => "") := by
  funext k
  simp [without, map, Kind.hookOptions]

theorem Hooks.without_createHooks : without Kind.createHooks = map (fun _ => "") id := by
  funext k
  simp [without, map, Kind.createHooks]

theorem Hooks.without_mountHooks : without Kind.mountHooks = map id (fun _ => "") := by
  funext k
  simp [without, map, Kind.mountHooks]

def Value.SameBut (hooks : List String) (tree tree' : Value) : Prop := tree.layoutWithout hooks = tree'.layoutWithout hooks

namespace Plan

theorem ofTree_without {hooks : List String} (hhooks : hooks ⊆ Kind.hookOptions) {g h : String → String}
    (hmap : Hooks.without hooks = Hooks.map g h) (tree : Value) (root : String) :
    ofTree (tree.layoutWithout hooks) root = mapHooks g h <$> ofTree tree root := by
  rw [ofTree, ofTree, Layout.read_without hhooks, hmap, Traced.outcome_map, bind_map_left, map_bind]
  exact bind_congr fun l => l.plan_mapHooks g h root

end Plan

/-- **Scripts with and without hooks**: those of `c₀` are those of `c` without the blocks of the hooks of its nodes, and both
mount the same filesystems. -/
structure Layout.Unhooked (l : Layout) (c c₀ : Compiled) (filesystems : String) : Prop where
  creation : ∃ s s₀, Node.UnhooksCreation ((l.inOrder c.order).map Device.node) s s₀ ∧
    c.createScript = Layout.createPreamble ++ s ∧ c₀.createScript = Layout.createPreamble ++ s₀
  mounting : ∃ s s₀, Node.UnhooksActivation ((l.inOrder c.order).map Device.node) s s₀ ∧
    c.mountScript = mountSections s filesystems ∧ c₀.mountScript = mountSections s₀ filesystems

theorem Layout.unhooked_of_plan {l : Layout} {root : String} {p : Plan} (h : l.plan root = .ok p) :
    l.Unhooked p.compiled (p.mapHooks (fun _ => "") fun _ => "").compiled
      (String.join (p.fragment.mounts.sorted.map (fun m => m.2.script))) := by
  obtain ⟨-, -, hcreation, hfragment, -⟩ := plan_eq_ok h
  obtain ⟨houtcome, hsteps⟩ := creationSteps_eq_ok_iff.1 hcreation
  have hcreate := unhooks_createDevices houtcome
  obtain ⟨steps, hactivation, hmount⟩ := unhooks_mountDevices hfragment
  obtain rfl : p.fragment.activation = steps := hactivation
  refine ⟨⟨_, _, hcreate, ?_, ?_⟩, ⟨_, _, hmount, rfl, rfl⟩⟩
  · rw [Plan.compiled, ← hsteps]
    rfl
  · rw [Plan.compiled, Plan.mapHooks, ← hsteps]
    rfl

/-- Layouts that are the same but for some hooks have the same plans but for these. -/
theorem Value.SameBut.plans {hooks : List String} {tree tree' : Value} (h : tree.SameBut hooks tree')
    (hhooks : hooks ⊆ Kind.hookOptions) {f g : String → String} (hmap : Hooks.without hooks = Hooks.map f g)
    (root : String) : Plan.mapHooks f g <$> Plan.ofTree tree root = Plan.mapHooks f g <$> Plan.ofTree tree' root := by
  rw [← Plan.ofTree_without hhooks hmap tree, ← Plan.ofTree_without hhooks hmap tree', h]

/-- **Hooks are confined.** -/
theorem hooks_confined (tree tree' : Value) (root : String) (h : tree.SameBut Kind.hookOptions tree') :
    (∀ f, (compile tree root).outcome = .error f ↔ (compile tree' root).outcome = .error f) ∧
    ∀ c, (compile tree root).outcome = .ok c → ∃ l l' c' c₀ filesystems,
      (Layout.read tree).outcome = .ok l ∧ (Layout.read tree').outcome = .ok l' ∧ (compile tree' root).outcome = .ok c' ∧
      (compile (tree.layoutWithout Kind.hookOptions) root).outcome = .ok c₀ ∧ c.Alike c' ∧ c.Alike c₀ ∧
      l.Unhooked c c₀ filesystems ∧ l'.Unhooked c' c₀ filesystems ∧
      (tree.SameBut Kind.mountHooks tree' → c.createScript = c'.createScript) ∧
      (tree.SameBut Kind.createHooks tree' → c.mountScript = c'.mountScript) := by
  have hplans := h.plans (List.Subset.refl _) Hooks.without_hookOptions root
  have hbare := Plan.ofTree_without (List.Subset.refl _) Hooks.without_hookOptions tree root
  constructor
  · intro f
    rw [outcome_compile_eq_ofTree, outcome_compile_eq_ofTree, except_map_eq_error_iff, except_map_eq_error_iff,
      ← except_map_eq_error_iff (k := Plan.mapHooks (fun _ => "") fun _ => ""), hplans, except_map_eq_error_iff]
  intro c hc
  obtain ⟨l, p, hl, hp, rfl⟩ := compile_eq_ok_iff.1 hc
  have hof : Plan.ofTree tree root = .ok p := except_bind_eq_ok_iff.2 ⟨l, hl, hp⟩
  rw [hof] at hplans hbare
  obtain ⟨p', hof', hsame⟩ := except_map_eq_ok_iff.1 hplans.symm
  obtain ⟨l', hl', hp'⟩ := except_bind_eq_ok_iff.1 hof'
  have hunhooked' := l'.unhooked_of_plan hp'
  have hmounts : p'.fragment.mounts = p.fragment.mounts := congrArg (·.fragment.mounts) hsame
  rw [hsame, hmounts] at hunhooked'
  refine ⟨l, l', p'.compiled, (p.mapHooks (fun _ => "") fun _ => "").compiled, _, hl, hl', ?_, ?_, ⟨?_, ?_, ?_, ?_⟩,
    ⟨rfl, rfl, rfl, rfl⟩, l.unhooked_of_plan hp, hunhooked', fun hcreate => ?_, fun hmount => ?_⟩
  · rw [outcome_compile_eq_ofTree, hof']
    rfl
  · rw [outcome_compile_eq_ofTree, hbare]
    rfl
  · exact (congrArg (·.order) hsame).symm
  · exact (congrArg (·.facts) hsame).symm
  · exact (congrArg (·.tools) hsame).symm
  · exact (congrArg (·.metadata) hsame).symm
  · have hplans := hcreate.plans (by decide) Hooks.without_mountHooks root
    rw [hof, hof'] at hplans
    have hcreation : p.creation.map (Step.mapHook id) = p'.creation.map (Step.mapHook id) :=
      congrArg (·.creation) (Except.ok.inj hplans)
    rw [Step.map_mapHook_id, Step.map_mapHook_id] at hcreation
    rw [Plan.compiled, Plan.compiled, hcreation]
  · have hplans := hmount.plans (by decide) Hooks.without_createHooks root
    rw [hof, hof'] at hplans
    have hactivation : p.fragment.activation.map (Step.mapHook id) = p'.fragment.activation.map (Step.mapHook id) :=
      congrArg (·.fragment.activation) (Except.ok.inj hplans)
    rw [Step.map_mapHook_id, Step.map_mapHook_id] at hactivation
    rw [Plan.compiled, Plan.compiled, Layout.mountText, Layout.mountText, hactivation, hmounts]

/-- A swap device on a disk, with one hook before its creation and another after its activation. -/
theorem hooks_confined_of_hooked_swap :
    let tree (before after : String) : Value := .map [entry "disk" (.map [entry "a" (node "disk" [
      entry "device" (.text "/dev/sda"), entry "preCreateHook" (.text before),
      entry "content" (node "swap" [entry "postMountHook" (.text after)])])])]
    (tree "date" "").SameBut Kind.hookOptions (tree "" "swapon --show") ∧
      ∃ c c' c₀, (compile (tree "date" "") "/mnt").outcome = .ok c ∧
      (compile (tree "" "swapon --show") "/mnt").outcome = .ok c' ∧
        (compile ((tree "date" "").layoutWithout Kind.hookOptions) "/mnt").outcome = .ok c₀ ∧ c.Alike c' ∧
        c.createScript ≠ c₀.createScript ∧ c'.createScript = c₀.createScript ∧
        c.mountScript = c₀.mountScript ∧ c'.mountScript ≠ c₀.mountScript := by
  intro tree
  have hsame : (tree "date" "").SameBut Kind.hookOptions (tree "" "swapon --show") := by
    unfold Value.SameBut
    with_unfolding_all rfl
  have hscripts : (do
      let c ← (compile (tree "date" "") "/mnt").outcome
      let c' ← (compile (tree "" "swapon --show") "/mnt").outcome
      let c₀ ← (compile ((tree "date" "").layoutWithout Kind.hookOptions) "/mnt").outcome
      return (c.createScript == c₀.createScript, c'.createScript == c₀.createScript, c.mountScript == c₀.mountScript,
        c'.mountScript == c₀.mountScript)).toOption = some (false, true, true, false) := by decide +kernel
  replace hscripts := eq_ok_of_toOption hscripts
  simp only [except_bind_eq_ok_iff, pure, Except.pure, Except.ok.injEq, Prod.mk.injEq, beq_iff_eq,
    beq_eq_false_iff_ne] at hscripts
  obtain ⟨c, hc, c', hc', c₀, hc₀, hscripts⟩ := hscripts
  obtain ⟨-, h⟩ := hooks_confined (tree "date" "") (tree "" "swapon --show") "/mnt" hsame
  obtain ⟨_, _, d', _, _, _, _, hd', _, halike, _⟩ := h c hc
  cases hc'.symm.trans hd'
  exact ⟨hsame, c, c', c₀, hc, hc', hc₀, halike, hscripts⟩

end Provision
