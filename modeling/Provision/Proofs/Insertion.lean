import Provision.Proofs.Creation.Frame
import Provision.Proofs.Layout.Insertion
import Provision.Proofs.Layout.Placed
import Provision.Proofs.Mount.Walk
import Provision.Proofs.Order.Isolated
import Provision.Proofs.Plan
/-!
# One device more

A device that holds no members, and that no member names, is on no edge: the others keep their order.  It records nothing,
so they are created as without it, and it finds nothing recorded for it, so it is created as if it were alone.  What it adds
to a plan is one block of its own in each part that keeps the order of the devices (`Layout.adds_of_plan`).
-/
namespace Provision

open Value (entry node)

/-! ## Blocks in lists and texts -/

/-- One list is another with a block put in somewhere. -/
def Inserted {α : Type} (block xs xs' : List α) : Prop :=
  ∃ before after, xs = before ++ after ∧ xs' = before ++ (block ++ after)

/-- One text is another with a block put in somewhere. -/
def InsertedText (block s s' : String) : Prop := ∃ before after, s = before ++ after ∧ s' = before ++ (block ++ after)

namespace Inserted

variable {α β : Type} {xs xs' : List α}

theorem join_map {block : List α} (h : Inserted block xs xs') (text : α → String) :
    InsertedText (String.join (block.map text)) (String.join (xs.map text)) (String.join (xs'.map text)) := by
  obtain ⟨before, after, rfl, rfl⟩ := h
  exact ⟨String.join (before.map text), String.join (after.map text), by rw [List.map_append, String.join_append],
    by simp only [List.map_append, String.join_append]⟩

theorem flatMap {x : α} (h : Inserted [x] xs xs') (k : α → List β) : Inserted (k x) (xs.flatMap k) (xs'.flatMap k) := by
  obtain ⟨before, after, rfl, rfl⟩ := h
  exact ⟨before.flatMap k, after.flatMap k, List.flatMap_append, by
    rw [List.flatMap_append, List.singleton_append, List.flatMap_cons]⟩

theorem mapM {ε : Type} {x : α} {k : α → Except ε β} {ys ys' : List β} (h : Inserted [x] xs xs') (hys : xs.mapM k = .ok ys)
    (hys' : xs'.mapM k = .ok ys') : ∃ y, k x = .ok y ∧ Inserted [y] ys ys' := by
  obtain ⟨before, after, rfl, rfl⟩ := h
  rw [List.mapM_append] at hys hys'
  rw [List.singleton_append, List.mapM_cons] at hys'
  simp only [except_bind_eq_ok_iff, pure, Except.pure, Except.ok.injEq] at hys hys'
  obtain ⟨bs, hbs, as, has, rfl⟩ := hys
  obtain ⟨bs', hbs', _, ⟨y, hy, as', has', rfl⟩, rfl⟩ := hys'
  cases hbs.symm.trans hbs'
  cases has.symm.trans has'
  exact ⟨y, hy, bs, as, rfl, rfl⟩

end Inserted

theorem InsertedText.append_left {block s s' : String} (h : InsertedText block s s') (t : String) :
    InsertedText block (t ++ s) (t ++ s') := by
  obtain ⟨before, after, rfl, rfl⟩ := h
  exact ⟨t ++ before, after, String.append_assoc.symm, String.append_assoc.symm⟩

/-! ## Creation without members -/

namespace Spec

/-- The creation of a node looks at no members but those of the aggregate that it is. -/
theorem create_with_members {spec : Spec} {ctx : Context} {members : List Recording}
    (h : ∀ group name, spec.aggregate? = some (group, name) →
      Recording.devicesOf members group.name name = Recording.devicesOf ctx.members group.name name) (bare : Bool) :
    spec.create { ctx with members := members } bare = spec.create ctx bare := by
  have hpaths (group : Group) (name : Value) (ha : spec.aggregate? = some (group, name)) :
      memberPaths group name { ctx with members := members } = memberPaths group name ctx := by
    simp only [memberPaths, Recording.collect, h group name ha]
  cases spec
  case volumeGroup | pool | array => simp only [create, prepare, membership?, aggregate?, hpaths _ _ rfl]; rfl
  all_goals rfl

theorem takes_eq_false_of_aggregate? {spec : Spec} {aggregate : Group × Value} (h : spec.aggregate? = some aggregate)
    {k : Kind} :
    k.holding.takes spec.kind = false := by
  cases spec
  case volumeGroup | pool | array => cases k <;> rfl
  all_goals cases h

end Spec

namespace Node

mutual

theorem create_with_members : ∀ (n : Node) (ctx : Context) (members : List Recording),
    (∀ m ∈ n.subnodes, ∀ group name, m.spec.aggregate? = some (group, name) →
      Recording.devicesOf members group.name name = Recording.devicesOf ctx.members group.name name) →
    n.create { ctx with members := members } = n.create ctx
  | ⟨key, spec, hooks, children⟩, ctx, members, h => by
    rw [subnodes] at h
    obtain ⟨hspec, hchildren⟩ := List.forall_mem_cons.1 h
    have hbelow : createBelow ⟨key, spec, hooks, children⟩ { ctx with members := members } =
        createBelow ⟨key, spec, hooks, children⟩ ctx := by
      simp only [createBelow, Spec.enter_with_members]
      split
      · cases hinner : spec.enter ctx with
        | error e => rfl
        | ok inner =>
          rw [← (Spec.inner_keeps (Spec.enter_eq_ok_iff.1 hinner).1).2.2] at hchildren
          exact createAll_with_members children inner members hchildren
      · rfl
    rw [create_eq, create_eq, hbelow, Visit.own, Visit.own, Spec.create_with_members hspec]

theorem createAll_with_members : ∀ (ns : List Node) (ctx : Context) (members : List Recording),
    (∀ m ∈ subnodesAll ns, ∀ group name, m.spec.aggregate? = some (group, name) →
      Recording.devicesOf members group.name name = Recording.devicesOf ctx.members group.name name) →
    createAll ns { ctx with members := members } = createAll ns ctx
  | [], _, _, _ => rfl
  | n :: ns, ctx, members, h => by
    rw [subnodesAll] at h
    obtain ⟨hn, hns⟩ := List.forall_mem_append.1 h
    rw [createAll, createAll, create_with_members n ctx members hn, createAll_with_members ns ctx members hns]

end

theorem Fits.eq_of_aggregate? {n m : Node} (h : n.Fits) (hm : m ∈ n.subnodes) {aggregate : Group × Value}
    (ha : m.spec.aggregate? = some aggregate) : m = n := by
  refine (h.exists_holder hm).resolve_right fun ⟨x, _, _, htakes⟩ => ?_
  rw [Spec.takes_eq_false_of_aggregate? ha] at htakes
  cases htakes

end Node

namespace Device

/-- Whether a member names a device: by its key, or by the name of the aggregate that it is. -/
def IsNamedBy (x : Device) (m : Group × Value) : Prop :=
  m.1 = x.group ∧ (m.2 = .text x.node.key ∨
    ∃ name, x.node.spec.aggregate? = some (x.group, name) ∧ Value.same name m.2 = true)

theorem recordings_eq_nil {x : Device} (h : x.node.memberships = []) (root : String) : x.recordings root = [] := by
  refine List.filterMap_eq_nil_iff.2 fun v hv => Option.map_eq_none_iff.2 ?_
  refine Option.eq_none_iff_forall_ne_some.2 fun m hm => ?_
  have hmem := Visit.mem_memberships hv hm
  rw [h] at hmem
  cases hmem

/-- What was recorded before a device does not change its creation, if none of it is for the aggregate that it is. -/
theorem create_with_members {x : Device} (hfits : x.node.Fits) {members : List Recording}
    (h : ∀ group name, x.node.spec.aggregate? = some (group, name) → Recording.devicesOf members group.name name = [])
    (root : String) : x.node.create (x.context root members) = x.node.create (x.context root []) :=
  Node.create_with_members x.node (x.context root []) members fun m hm group name ha => by
    obtain rfl := hfits.eq_of_aggregate? hm ha
    exact h group name ha

theorem devicesOf_recordings_eq_nil {ds : List Device} {x : Device} {name : Value}
    (hx : x.node.spec.aggregate? = some (x.group, name)) (h : ∀ d ∈ ds, ∀ m ∈ d.node.memberships, ¬ x.IsNamedBy m)
    (root : String) :
    Recording.devicesOf (ds.flatMap (·.recordings root)) x.group.name name = [] := by
  have hrecorded : ds.flatMap (·.recordings root) = (ds.flatMap (·.visits root [])).filterMap Visit.recording? := by
    rw [List.filterMap_flatMap]
    rfl
  rw [hrecorded, Visit.devicesOf_filterMap_recording?, List.map_eq_nil_iff, List.filter_eq_nil_iff]
  intro v hv hfeeds
  obtain ⟨d, hd, hv⟩ := List.mem_flatMap.1 hv
  obtain ⟨ref, hm, hsame⟩ := Visit.feeds_iff.1 hfeeds
  exact h d hd _ (Visit.mem_memberships hv hm) ⟨rfl, .inr ⟨name, hx, hsame⟩⟩

end Device

namespace Layout

variable {l l' : Layout} {x : Device} {before after : List Device} {root : String}

theorem metadata_insert (hl : l.devices = before ++ after) (hl' : l'.devices = before ++ x :: after)
    (hx : x.node.memberships = []) {m : Value.Entries} (h : l'.metadata = .ok m) : l.metadata = .ok m := by
  have hnone : x.node.metadata (some x.ref) = .ok [] := by
    obtain ⟨parts, hparts, -⟩ := except_bind_eq_ok_iff.1 h
    have hmem : x ∈ l'.devices := hl' ▸ List.mem_append_right before List.mem_cons_self
    obtain ⟨part, hpart⟩ := exists_of_except_mapM hparts hmem
    obtain ⟨_, hpath, -⟩ := except_bind_eq_ok_iff.1 hpart
    rw [Node.metadata, hpath, hx]
    rfl
  have hmerge (bs as : List Value.Entries) : Metadata.mergeAll (bs ++ [] :: as) = Metadata.mergeAll (bs ++ as) := by
    simp only [Metadata.mergeAll, List.foldl_append, List.foldl_cons, Metadata.merge_nil]
  simp only [metadata, hl, hl', List.mapM_append, List.mapM_cons, hnone, except_ok_bind, bind_assoc, pure_bind,
    hmerge] at h ⊢
  exact h

theorem isolated_of_unrelated (hl : l.devices = before ++ after) (hl' : l'.devices = before ++ x :: after)
    (hn : l'.refs.Nodup)
    (hnames : ∀ d ∈ l.devices, ∀ m ∈ d.node.memberships, ¬ x.IsNamedBy m) {metadata : Value.Entries}
    (hm : l.metadata = .ok metadata) :
    Order.Isolated ((Metadata.requirements metadata).flatMap Requirement.edges) x.ref := by
  intro e he
  obtain ⟨d, hd, m, hmem, hgroup, hname, hproducer⟩ := (mem_edges_iff hm).1 he
  refine ⟨fun heq => ?_, fun heq => ?_⟩
  · rw [refs, hl', List.map_append, List.map_cons, List.nodup_middle, ← List.map_append, ← hl] at hn
    exact hn.notMem (heq ▸ hproducer ▸ List.mem_map_of_mem hd)
  · rw [heq] at hgroup hname
    exact hnames d hd m hmem ⟨(Group.name_injective hgroup).symm, .inl hname⟩

theorem inOrder_insert (hl : l.devices = before ++ after) (hl' : l'.devices = before ++ x :: after) (hwell : l'.WellFormed)
    {refs refs' : List DeviceRef} (hn : (refs ++ x.ref :: refs').Nodup) :
    l'.inOrder (refs ++ x.ref :: refs') = l.inOrder refs ++ x :: l.inOrder refs' := by
  have hothers (rs : List DeviceRef) (hrs : x.ref ∉ rs) : l'.inOrder rs = l.inOrder rs := by
    refine List.filterMap_congr fun r hr => ?_
    have hne : (x.ref == r) = false := by simpa using fun e : x.ref = r => hrs (e ▸ hr)
    rw [hl, hl', List.find?_append, List.find?_append, List.find?_cons, hne]
  obtain ⟨hbefore, hafter⟩ := not_or.1 (List.mem_append.not.1 (List.nodup_middle.1 hn).notMem)
  have hfind := hwell.find?_ref (hl' ▸ List.mem_append_right _ List.mem_cons_self)
  rw [← hothers refs hbefore, ← hothers refs' hafter]
  simp only [inOrder, List.filterMap_append, List.filterMap_cons, hfind]

theorem steps_createDevices_cons {d : Device} {members : List Recording}
    (h : (d.node.create (d.context root members)).outcome = .ok ()) (ds : List Device) :
    Creation.steps (createDevices root (d :: ds) members).record =
      Creation.steps (d.node.create (d.context root members)).record ++
        Creation.steps (createDevices root ds (members ++ d.recordings root)).record := by
  rw [createDevices, Traced.record_bind, Creation.outcome_log, Creation.steps_append, Creation.steps_log, List.nil_append]
  simp only [logDebug, Traced.outcome_tell, Traced.record_bind, h, Creation.steps_append, (Device.walk_ok h).2.1]

theorem steps_createDevices_append : ∀ {ds es : List Device} {members : List Recording},
    (createDevices root (ds ++ es) members).outcome = .ok () →
      Creation.steps (createDevices root (ds ++ es) members).record =
        Creation.steps (createDevices root ds members).record ++
        Creation.steps (createDevices root es (members ++ ds.flatMap (·.recordings root))).record
  | [], _, _, _ => by simp [createDevices, Creation.steps]
  | d :: ds, es, members, h => by
    obtain ⟨hd, hrest, -⟩ := createDevices_cons_ok h
    rw [List.cons_append, steps_createDevices_cons hd, steps_createDevices_append hrest, steps_createDevices_cons hd,
      List.flatMap_cons, List.append_assoc, List.append_assoc]

/-- **A device that is not named adds its own steps** to a creation, as if it were created alone. -/
theorem createDevices_insert {ds es : List Device} (hfits : x.node.Fits) (hmembers : x.node.memberships = [])
    (hgroup : ∀ group name, x.node.spec.aggregate? = some (group, name) → x.group = group)
    (hnames : ∀ d ∈ ds, ∀ m ∈ d.node.memberships, ¬ x.IsNamedBy m) (h : (createDevices root (ds ++ es) []).outcome = .ok ())
    (h' : (createDevices root (ds ++ x :: es) []).outcome = .ok ()) :
    (x.node.create (x.context root [])).outcome = .ok () ∧
      Inserted (Creation.steps (x.node.create (x.context root [])).record)
        (Creation.steps (createDevices root (ds ++ es) []).record)
        (Creation.steps (createDevices root (ds ++ x :: es) []).record) := by
  have hunrecorded (group : Group) (name : Value) (ha : x.node.spec.aggregate? = some (group, name)) :
      Recording.devicesOf (ds.flatMap (·.recordings root)) group.name name = [] := by
    obtain rfl := hgroup group name ha
    exact Device.devicesOf_recordings_eq_nil ha hnames root
  -- what the devices before it recorded is for other aggregates, so the walk is the one without any members
  have hwalk := Device.create_with_members hfits hunrecorded root
  obtain ⟨hx, -, -⟩ := createDevices_cons_ok (createDevices_of_append h')
  rw [List.nil_append] at hx
  refine ⟨hwalk ▸ hx, _, _, steps_createDevices_append h, ?_⟩
  rw [steps_createDevices_append h', List.nil_append, steps_createDevices_cons hx, hwalk, Device.recordings_eq_nil hmembers,
    List.append_nil]

theorem activation_mountDevices : ∀ {ds : List Device} {acc f : MountFragment}, (mountDevices root ds acc).outcome = .ok f →
    ∃ fs, ds.mapM (fun d => (d.node.mount (d.context root [])).outcome) = .ok fs ∧
      f.activation = acc.activation ++ fs.flatMap Fragment.activation
  | [], acc, f, h => by
    obtain rfl := Except.ok.inj h
    exact ⟨[], rfl, (List.append_nil _).symm⟩
  | d :: ds, acc, f, h => by
    rw [mountDevices] at h
    obtain ⟨fd, hd, h⟩ := Traced.outcome_bind_eq_ok_iff.1 h
    obtain ⟨acc', hacc, h⟩ := Traced.outcome_bind_eq_ok_iff.1 h
    rw [Fragment.outcome_add, Except.ok.injEq] at hacc
    obtain ⟨fs, hfs, hactivation⟩ := activation_mountDevices h
    refine ⟨fd :: fs, ?_, ?_⟩
    · rw [List.mapM_cons, hd, except_ok_bind, hfs]
      rfl
    · rw [hactivation, ← hacc, List.flatMap_cons, List.append_assoc]

end Layout

/-- **What one device more adds to a plan**: itself to the order, and a block of its own to the creation script, to the
activation section and to the facts. -/
structure Device.Adds (x : Device) (root : String) (p p' : Plan) : Prop where
  order : Inserted [x.ref] p.order p'.order ∧ p'.order.erase x.ref = p.order
  createScript : ∃ steps, (Layout.stepsOf (x.node.create (x.context root []))).outcome = .ok steps ∧
    InsertedText (creationText steps) p.compiled.createScript p'.compiled.createScript
  activation : ∃ f, (x.node.mount (x.context root [])).outcome = .ok f ∧
    InsertedText (activationText f.activation) (activationText p.fragment.activation) (activationText p'.fragment.activation)
  facts : ∃ facts, x.node.facts { parent := some x.ref } = .ok facts ∧ Inserted facts p.facts p'.facts

namespace Layout

variable {l l' : Layout} {x : Device} {before after : List Device} {root : String}

/-- The order of a layout with one device more is the order without it, and the device somewhere in it. -/
theorem order_insert (hl : l.devices = before ++ after) (hl' : l'.devices = before ++ x :: after) (hn : l'.refs.Nodup)
    (hnames : ∀ d ∈ l.devices, ∀ m ∈ d.node.memberships, ¬ x.IsNamedBy m) {metadata : Value.Entries}
    (hm : l.metadata = .ok metadata) {order order' : List DeviceRef}
    (h : Requirement.sort (Metadata.requirements metadata) l.refs = .ok order)
    (h' : Requirement.sort (Metadata.requirements metadata) l'.refs = .ok order') :
    order'.erase x.ref = order ∧ ∃ rs rs', order = rs ++ rs' ∧ order' = rs ++ x.ref :: rs' ∧ (rs ++ x.ref :: rs').Nodup := by
  have hisolated := isolated_of_unrelated hl hl' hn hnames hm
  have hperm := Order.perm_of_sort hn (Requirement.sort_eq_ok h')
  have hx : x.ref ∈ order' := hperm.mem_iff.2 (List.mem_map_of_mem (hl' ▸ List.mem_append_right _ List.mem_cons_self))
  obtain ⟨rs, rs', rfl⟩ := List.append_of_mem hx
  have hnodup := hperm.nodup_iff.2 hn
  have hrs : x.ref ∉ rs := fun hmem => (List.nodup_middle.1 hnodup).notMem (List.mem_append_left _ hmem)
  have herase : (rs ++ x.ref :: rs').erase x.ref = rs ++ rs' := by
    rw [List.erase_append_right _ hrs, List.erase_cons_head]
  have hrefs : l.refs = before.map Device.ref ++ after.map Device.ref := by rw [refs, hl, List.map_append]
  have hrefs' : l'.refs = before.map Device.ref ++ x.ref :: after.map Device.ref := by
    rw [refs, hl', List.map_append, List.map_cons]
  rw [hrefs] at h
  rw [hrefs'] at h' hn
  have horder := Order.sort_insert hn hisolated (Requirement.sort_eq_ok h) (Requirement.sort_eq_ok h')
  exact ⟨horder, rs, rs', horder.symm.trans herase, rfl, hnodup⟩

/-- **The plan of a layout with one device more**, which holds no members and is named by none. -/
theorem adds_of_plan (hl : l.devices = before ++ after) (hl' : l'.devices = before ++ x :: after) (hwell : l'.WellFormed)
    (hmembers : x.node.memberships = []) (hnames : ∀ d ∈ l.devices, ∀ m ∈ d.node.memberships, ¬ x.IsNamedBy m) {p p' : Plan}
    (hp : l.plan root = .ok p) (hp' : l'.plan root = .ok p') : x.Adds root p p' := by
  obtain ⟨hmetadata, horder, hcreation, hfragment, hfacts, -⟩ := plan_eq_ok hp
  obtain ⟨hmetadata', horder', hcreation', hfragment', hfacts', -⟩ := plan_eq_ok hp'
  rw [← Except.ok.inj (hmetadata.symm.trans (metadata_insert hl hl' hmembers hmetadata'))] at horder'
  obtain ⟨herase, rs, rs', hrs, hrs', hn⟩ := order_insert hl hl' hwell.nodup hnames hmetadata horder horder'
  have hin := inOrder_insert hl hl' hwell hn
  have hin₀ : l.inOrder (rs ++ rs') = l.inOrder rs ++ l.inOrder rs' := List.filterMap_append
  have hx : x ∈ l'.devices := hl' ▸ List.mem_append_right _ List.mem_cons_self
  have hplaced : Inserted [x] (l.inOrder rs ++ l.inOrder rs') (l.inOrder rs ++ x :: l.inOrder rs') := ⟨_, _, rfl, rfl⟩
  have hlisted : Inserted [x] l.devices l'.devices := ⟨before, after, hl, hl'⟩
  refine { order := ⟨⟨rs, rs', hrs, hrs'⟩, herase⟩,
           createScript := ?createScript, activation := ?activation, facts := ?facts }
  case createScript =>
    obtain ⟨hok, hsteps⟩ := creationSteps_eq_ok_iff.1 hcreation
    obtain ⟨hok', hsteps'⟩ := creationSteps_eq_ok_iff.1 hcreation'
    rw [creation, hrs, hin₀] at hok hsteps
    rw [creation, hrs', hin] at hok' hsteps'
    obtain ⟨hown, hinserted⟩ := createDevices_insert (hwell.fits x hx) hmembers
      (fun group name ha => hwell.group_of_aggregate? hx ha) (fun d hd => hnames d (mem_of_mem_inOrder hd)) hok hok'
    rw [hsteps, hsteps'] at hinserted
    exact ⟨_, by rw [stepsOf, hown]; rfl, (hinserted.join_map _).append_left _⟩
  case activation =>
    rw [mountFragment, hrs, hin₀] at hfragment
    rw [mountFragment, hrs', hin] at hfragment'
    obtain ⟨fs, hfs, hactivation⟩ := activation_mountDevices hfragment
    obtain ⟨fs', hfs', hactivation'⟩ := activation_mountDevices hfragment'
    obtain ⟨f, hf, hinserted⟩ := hplaced.mapM hfs hfs'
    have hsteps := hinserted.flatMap Fragment.activation
    rw [Fragment.empty, List.nil_append] at hactivation hactivation'
    rw [← hactivation, ← hactivation'] at hsteps
    exact ⟨f, hf, hsteps.join_map _⟩
  case facts =>
    -- facts stand in the order of declaration, not in that of creation
    obtain ⟨parts, hparts, hp⟩ := except_bind_eq_ok_iff.1 hfacts
    obtain ⟨parts', hparts', hp'⟩ := except_bind_eq_ok_iff.1 hfacts'
    obtain ⟨own, hown, hinserted⟩ := hlisted.mapM hparts hparts'
    rw [← Except.ok.inj hp, ← Except.ok.inj hp', ← List.flatMap_id, ← List.flatMap_id]
    exact ⟨own, hown, hinserted.flatMap id⟩

end Layout

/-- **One device more disturbs nothing else.**  Where an entry is put into a group, under a key of its own, that holds no
members and that no member names, neither by this key nor by its name, and the layout compiles with it and without it: the
others keep their order, and the creation script, the activation section and the facts have one block more, which is what
the device gives when it is compiled alone. -/
theorem insertion_disturbs_nothing {tree tree' : Value} {g : Group} {e : Value × Value} (h : tree.Inserts g e tree')
    {l : Layout} (hl : (Layout.read tree).outcome = .ok l) {n : Node} (hn : (Layout.readEntry g e).outcome = .ok n)
    (hmembers : n.memberships = []) (hnames : ∀ d ∈ l.devices, ∀ m ∈ d.node.memberships, ¬ Device.IsNamedBy ⟨g, n⟩ m)
    {root : String} {c c' : Compiled} (hc : (compile tree root).outcome = .ok c)
    (hc' : (compile tree' root).outcome = .ok c') :
    ∃ p p', Plan.ofTree tree root = .ok p ∧ Plan.ofTree tree' root = .ok p' ∧ p.compiled = c ∧ p'.compiled = c' ∧
      Device.Adds ⟨g, n⟩ root p p' := by
  obtain ⟨_, p, hread, hp, hcompiled⟩ := compile_eq_ok_iff.1 hc
  cases hl.symm.trans hread
  obtain ⟨l', p', hl', hp', hcompiled'⟩ := compile_eq_ok_iff.1 hc'
  obtain ⟨x, before, after, hx, hdevices, hdevices'⟩ := Layout.read_insert h hl hl'
  cases hn.symm.trans hx
  exact ⟨p, p', except_bind_eq_ok_iff.2 ⟨l, hl, hp⟩, except_bind_eq_ok_iff.2 ⟨l', hl', hp'⟩, hcompiled, hcompiled',
    Layout.adds_of_plan hdevices hdevices' (Layout.wellFormed_of_read hl') hmembers hnames hp hp'⟩

/-- A volume group before another that has a member. -/
theorem insertion_disturbs_nothing_of_spare_group :
    let tree (groups : Value.Entries) : Value := .map [
      entry "disk" (.map [entry "a" (node "disk" [entry "device" (.text "/dev/sda"),
        entry "content" (node "lvm_pv" [entry "vg" (.text "data")])])]),
      entry "lvm_vg" (.map groups)]
    let data := entry "data" (node "lvm_vg" [])
    let spare := entry "spare" (node "lvm_vg" [])
    ∃ n p p', (tree [data]).Inserts .volumeGroup spare (tree [spare, data]) ∧
      (Layout.readEntry .volumeGroup spare).outcome = .ok n ∧ Plan.ofTree (tree [data]) "/mnt" = .ok p ∧
      Plan.ofTree (tree [spare, data]) "/mnt" = .ok p' ∧
      p'.order = [⟨"disk", "a"⟩, ⟨"lvm_vg", "spare"⟩, ⟨"lvm_vg", "data"⟩] ∧ Device.Adds ⟨.volumeGroup, n⟩ "/mnt" p p' := by
  intro tree data spare
  have hinserts : (tree [data]).Inserts .volumeGroup spare (tree [spare, data]) := by
    refine ⟨_, _, [], [data], rfl, rfl, ?_, ?_, by decide, fun h hh => ?_⟩
    · with_unfolding_all rfl
    · with_unfolding_all rfl
    · cases h <;> first | contradiction | with_unfolding_all rfl
  have hread : (Layout.read (tree [data])).outcome.toOption.map (fun l => l.devices.all (fun d =>
      d.node.memberships.all (fun m => Value.same m.2 (.text "data")))) = some true := by decide +kernel
  have hentry : (Layout.readEntry .volumeGroup spare).outcome.toOption.map (fun n => (n.key, n.memberships.isEmpty,
      n.spec.aggregate?.any (fun a => a.1 == .volumeGroup && Value.same (.text "spare") a.2))) =
      some ("spare", true, true) := by decide +kernel
  have hcompile : (compile (tree [data]) "/mnt").outcome.toOption.isSome = true := by decide +kernel
  have hcompile' : (compile (tree [spare, data]) "/mnt").outcome.toOption.map (·.order) =
      some [⟨"disk", "a"⟩, ⟨"lvm_vg", "spare"⟩, ⟨"lvm_vg", "data"⟩] := by decide +kernel
  obtain ⟨l, hl, hall⟩ := Option.map_eq_some_iff.1 hread
  obtain ⟨n, hn, hparts⟩ := Option.map_eq_some_iff.1 hentry
  obtain ⟨c, hc⟩ := Option.isSome_iff_exists.1 hcompile
  obtain ⟨c', hc', horder⟩ := Option.map_eq_some_iff.1 hcompile'
  simp only [Prod.mk.injEq, List.isEmpty_iff] at hparts
  obtain ⟨hkey, hmembers, hname⟩ := hparts
  have hnames : ∀ d ∈ l.devices, ∀ m ∈ d.node.memberships, ¬ Device.IsNamedBy ⟨.volumeGroup, n⟩ m := by
    rintro d hd ⟨g, ref⟩ hm ⟨-, hnamed⟩
    obtain rfl := Value.same_eq_text_iff.1 (List.all_eq_true.1 (List.all_eq_true.1 hall d hd) _ hm)
    simp [hkey, eq_some_of_any_named hname, Value.same_text_iff] at hnamed
  obtain ⟨p, p', hp, hp', -, rfl, hadds⟩ := insertion_disturbs_nothing hinserts (eq_ok_of_toOption hl) (eq_ok_of_toOption hn)
    hmembers hnames (eq_ok_of_toOption hc) (eq_ok_of_toOption hc')
  exact ⟨n, p, p', hinserts, eq_ok_of_toOption hn, hp, hp', horder, hadds⟩

end Provision
