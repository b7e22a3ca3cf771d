import Provision.Proofs.Mount.Walk
/-!
# What the configuration walk does

The configuration walk meets the same nodes as the others, whatever the root of the target system is, and every node
contributes its own facts.  Of the nodes that hold others only a container has a fact before those of the nodes below, which
unlocks it.  So all facts but the unlocks of a tree come in the order in which the mount walk enters what it mounts
(`Node.filterMap_facts`), and those of a layout device by device in the order of declaration (`Layout.facts_ok`).
-/
namespace Provision

namespace Mounting

def source? : Mounting → Option Value
  | filesystem source .. => some source
  | swap _ => none

end Mounting

namespace Fact

def mounted? : Fact → Option (String × Value)
  | filesystem (.text m) device .. => some (m, device)
  | _ => none

def isUnlock : Fact → Bool
  | unlock .. => true
  | _ => false

/-- Facts without the unlocks among them. -/
def late (fs : List Fact) : List Fact := fs.filter (fun f => !f.isUnlock)

@[simp] theorem late_append (fs gs : List Fact) : late (fs ++ gs) = late fs ++ late gs := List.filter_append _ _

theorem filterMap_late {β : Type} {g : Fact → Option β} (hg : ∀ name device keyFile, g (.unlock name device keyFile) = none)
    (fs : List Fact) : (late fs).filterMap g = fs.filterMap g := by
  rw [late, List.filterMap_filter]
  refine List.filterMap_congr fun f _ => ?_
  cases f with
  | unlock name device keyFile => exact (hg name device keyFile).symm
  | _ => rfl

end Fact

theorem Spec.map_toText_optionValues (options : List String) : (Spec.optionValues options).map Value.toText = options := by
  simp [Spec.optionValues, List.map_map, Function.comp_def]

namespace Visit

def factsBefore (v : Visit) : List Fact := ((v.node.spec.factsBefore v.ctx).toOption).getD []

def facts (v : Visit) : List Fact := v.factsBefore ++ v.node.spec.factsAfter v.ctx

/-- The filesystem that a node itself mounts: its mountpoint and what it is mounted from. -/
def mounted? (v : Visit) : Option (String × Value) := v.entered?.bind (fun e => e.2.source?.map (e.1, ·))

/-- **What a node mounts is what it says to the host**: its one filesystem fact, if it mounts a filesystem. -/
theorem filterMap_mounted?_facts (v : Visit) : v.facts.filterMap Fact.mounted? = v.mounted?.toList := by
  obtain ⟨⟨key, spec, hooks, children⟩, ctx⟩ := v
  cases spec <;> simp only [facts, factsBefore, mounted?, entered?, Spec.factsBefore, Spec.factsAfter, Spec.mounting]
  case subvolume name extraArgs mountOptions mountpoint =>
    -- both are made from one mountpoint, which may fail or be none
    cases Spec.subvolumeMountpoint name mountpoint ctx with
    | error e => rfl
    | ok m => cases m <;> rfl
  case swap => cases ctx.device.asText <;> rfl
  case dataset name type options mountOptions mountpoint size =>
    cases Spec.datasetMountpoint type options mountpoint <;> rfl
  case btrfs extraArgs mountOptions mountpoint => cases mountpoint <;> rfl
  case pool name mode options rootOptions mountpoint mountOptions => cases mountpoint <;> rfl
  case logicalVolume name size type extraArgs => cases type.isGiven <;> rfl
  all_goals rfl

theorem texts_of_mem_facts {v : Visit} {mountpoint device fsType : Value} {options : List Value}
    (h : Fact.filesystem mountpoint device fsType options ∈ v.facts) :
    ∃ m os, mountpoint = .text m ∧ options = Spec.optionValues os := by
  obtain ⟨⟨key, spec, hooks, children⟩, ctx⟩ := v
  cases spec
  case subvolume name extraArgs mountOptions path =>
    cases hm : Spec.subvolumeMountpoint name path ctx with
    | error e => simp [facts, factsBefore, Spec.factsBefore, Spec.factsAfter, hm, bind, Except.bind, Except.toOption] at h
    | ok m =>
      simp only [facts, factsBefore, Spec.factsBefore, Spec.factsAfter, hm, bind, Except.bind, pure, Except.pure,
        Except.toOption, Option.getD_some, List.append_nil, Option.mem_toList, Option.map_eq_some_iff] at h
      obtain ⟨m, -, h⟩ := h
      obtain ⟨rfl, -, -, rfl⟩ := Fact.filesystem.inj h
      exact ⟨m, _, rfl, rfl⟩
  case filesystem | nodev =>
    simp only [facts, factsBefore, Spec.factsBefore, Spec.factsAfter, Except.toOption, Option.getD_some, List.append_nil,
      List.mem_singleton] at h
    obtain ⟨rfl, -, -, rfl⟩ := Fact.filesystem.inj h
    exact ⟨_, _, rfl, rfl⟩
  case btrfs | pool | dataset =>
    simp only [facts, factsBefore, Spec.factsBefore, Spec.factsAfter, Except.toOption, Option.getD_some, List.append_nil,
      List.nil_append, Option.mem_toList, Option.map_eq_some_iff] at h
    obtain ⟨m, -, h⟩ := h
    obtain ⟨rfl, -, -, rfl⟩ := Fact.filesystem.inj h
    exact ⟨m, _, rfl, rfl⟩
  all_goals simp [facts, factsBefore, Spec.factsBefore, Spec.factsAfter, Except.toOption] at h

theorem text_of_swap_mem_facts {v : Visit} (h : v.node.spec.mounting v.ctx = .ok v.entered?) {device random : Value}
    (hf : Fact.swap device random ∈ v.facts) : ∃ path, device = .text path := by
  obtain ⟨⟨key, spec, hooks, children⟩, ctx⟩ := v
  cases spec
  case swap =>
    obtain ⟨path, hpath, -⟩ := except_bind_eq_ok_iff.1 h
    simp only [facts, factsBefore, Spec.factsBefore, Spec.factsAfter, Except.toOption, Option.getD_some, List.append_nil,
      List.mem_singleton] at hf
    exact ⟨path, (Fact.swap.inj hf).1.trans (Value.eq_text_of_asText hpath)⟩
  case subvolume name extraArgs mountOptions mountpoint =>
    cases hm : Spec.subvolumeMountpoint name mountpoint ctx <;>
      simp [facts, factsBefore, Spec.factsBefore, Spec.factsAfter, hm, bind, Except.bind, pure, Except.pure,
        Except.toOption] at hf
  case logicalVolume name size type extraArgs =>
    cases hg : type.isGiven <;> simp [facts, factsBefore, Spec.factsBefore, Spec.factsAfter, hg, Except.toOption] at hf
  all_goals simp [facts, factsBefore, Spec.factsBefore, Spec.factsAfter, Except.toOption] at hf

end Visit

namespace Spec

theorem late_factsBefore {spec : Spec} {ctx : Context} {before : List Fact} (h : spec.factsBefore ctx = .ok before)
    (hplaces : spec.places = true) {k : Kind} (hk : spec.kind.holding.takes k = true) : Fact.late before = [] := by
  cases spec
  case dataset name type options mountOptions mountpoint size =>
    cases type
    · cases hplaces
    · cases h
      rfl
  case filesystem | subvolume | swap | nodev => cases hk
  all_goals
    cases h
    rfl

theorem inner_with_root (spec : Spec) (ctx : Context) (root : String) :
    spec.inner { ctx with root := root } = (spec.inner ctx).map (fun inner => { inner with root := root }) := by
  cases spec
  case partition index _ _ => cases h : DevicePath.partition ctx.device index.toText <;> simp [inner, h] <;> rfl
  all_goals rfl

theorem enter_with_root (spec : Spec) (ctx : Context) (root : String) :
    spec.enter { ctx with root := root } = (spec.enter ctx).map (fun inner => { inner with root := root }) :=
  enter_map (g := fun ctx => { ctx with root := root }) (by cases spec <;> rfl) (inner_with_root spec ctx root)

theorem factsWritten_with_root (spec : Spec) (ctx : Context) (root : String) (mounted : Bool) :
    spec.factsWritten { ctx with root := root } mounted = spec.factsWritten ctx mounted := by
  cases spec <;> rfl

/-- What a node says to the host depends neither on the root of the target system nor on members. -/
theorem factsBefore_congr (spec : Spec) (ctx : Context) (root : String) (ms : List Recording) :
    spec.factsBefore { ctx with root := root, members := ms } = spec.factsBefore ctx := by
  cases spec <;> rfl

theorem factsAfter_congr (spec : Spec) (ctx : Context) (root : String) (ms : List Recording) :
    spec.factsAfter { ctx with root := root, members := ms } = spec.factsAfter ctx := by
  cases spec <;> rfl

end Spec

namespace Node

def factsBelow (n : Node) (ctx : Context) : Except Fault (List Fact) :=
  if n.spec.places && !n.children.isEmpty then do
    let inner ← n.spec.enter ctx
    factsAll n.children inner
  else pure []

theorem facts_eq (n : Node) (ctx : Context) :
    n.facts ctx = (do
      let before ← n.spec.factsBefore ctx
      Value.requireWritable (n.spec.factsWritten ctx !before.isEmpty)
      let below ← factsBelow n ctx
      Value.requireWritable n.spec.factsAfterWritten
      return before ++ below ++ n.spec.factsAfter ctx) := by
  cases n
  rw [facts]
  simp only [factsBelow]
  split <;> simp only [bind_assoc, pure_bind]

theorem factsBelow_ok {n : Node} {ctx : Context} {below : List Fact} (h : factsBelow n ctx = .ok below) :
    match n.spec.handed? ctx with
    | some inner => factsAll n.children inner = .ok below
    | none => below = [] := by
  unfold factsBelow at h
  cases hc : n.children with
  | nil =>
    obtain rfl : [] = below := by simpa [hc, pure, Except.pure] using h
    split <;> rfl
  | cons c cs =>
    cases hp : n.spec.places with
    | false =>
      obtain rfl : [] = below := by simpa [hp, pure, Except.pure] using h
      simp [Spec.handed?, hp]
    | true =>
      simp only [hp, hc, List.isEmpty_cons, Bool.not_false, Bool.and_true, if_true] at h
      obtain ⟨inner, hinner, h⟩ := except_bind_eq_ok_iff.1 h
      simpa [Spec.handed?, hp, (Spec.enter_eq_ok_iff.1 hinner).1, Except.toOption] using h

mutual

/-- **The facts of a tree** are those of its nodes; all but the unlocks come in the order of what is mounted. -/
theorem facts_ok : ∀ (n : Node) (ctx : Context) (fs : List Fact), n.Fits → n.facts ctx = .ok fs →
    fs.Perm ((n.visits ctx).flatMap Visit.facts) ∧
      Fact.late fs = (n.visitsUp ctx).flatMap (fun v => Fact.late v.facts) ∧
      ∀ v ∈ n.visits ctx, v.node.spec.factsBefore v.ctx = .ok v.factsBefore
  | ⟨key, spec, hooks, children⟩, ctx, fs, ⟨hkinds, hfits⟩, h => by
    rw [facts_eq] at h
    obtain ⟨before, hbefore, h⟩ := except_bind_eq_ok_iff.1 h
    obtain ⟨_, -, h⟩ := except_bind_eq_ok_iff.1 h
    obtain ⟨below, hbelow, h⟩ := except_bind_eq_ok_iff.1 h
    obtain ⟨_, -, h⟩ := except_bind_eq_ok_iff.1 h
    obtain rfl := Except.ok.inj h
    have hown : (Visit.mk ⟨key, spec, hooks, children⟩ ctx).factsBefore = before := by
      simp [Visit.factsBefore, hbefore, Except.toOption]
    have hlate : Fact.late (Visit.mk ⟨key, spec, hooks, children⟩ ctx).facts =
        Fact.late before ++ Fact.late (spec.factsAfter ctx) := by
      rw [Visit.facts, hown, Fact.late_append]
    have hb := factsBelow_ok hbelow
    rw [visits_eq, visitsUp_eq, List.flatMap_cons, Visit.facts, hown]
    cases hhanded : spec.handed? ctx with
    | none =>
      simp only [hhanded] at hb ⊢
      subst hb
      refine ⟨by simp, ?_, fun v hv => ?_⟩
      · rw [List.append_nil, Fact.late_append, List.nil_append, List.flatMap_singleton, hlate]
      · rw [List.mem_singleton.1 hv, hown]
        exact hbefore
    | some inner =>
      simp only [hhanded] at hb ⊢
      obtain ⟨hperm, hup, hall⟩ := factsAll_ok children inner below hfits hb
      refine ⟨?_, ?_, fun v hv => ?_⟩
      · rw [List.append_assoc, List.append_assoc]
        exact (List.perm_append_comm.trans (hperm.append_left _)).append_left before
      · cases children with
        | nil =>
          obtain rfl : [] = below := Except.ok.inj hb
          rw [List.append_nil, Fact.late_append, visitsUpAll, List.nil_append, List.flatMap_singleton, hlate]
        | cons c cs =>
          -- what this node says of itself, the unlock apart, comes after what the nodes below say
          have hquiet := Spec.late_factsBefore hbefore (Spec.handed?_eq_some_iff.1 hhanded).1 (hkinds c List.mem_cons_self)
          rw [hquiet, List.nil_append] at hlate
          rw [Fact.late_append, Fact.late_append, hquiet, List.nil_append, hup, List.flatMap_append, List.flatMap_singleton,
            hlate]
      · rcases List.mem_cons.1 hv with rfl | hv
        · rw [hown]
          exact hbefore
        · exact hall v hv

theorem factsAll_ok : ∀ (ns : List Node) (ctx : Context) (fs : List Fact), (∀ n ∈ ns, n.Fits) → factsAll ns ctx = .ok fs →
    fs.Perm ((visitsAll ns ctx).flatMap Visit.facts) ∧
      Fact.late fs = (visitsUpAll ns ctx).flatMap (fun v => Fact.late v.facts) ∧
      ∀ v ∈ visitsAll ns ctx, v.node.spec.factsBefore v.ctx = .ok v.factsBefore
  | [], ctx, fs, _, h => by
    obtain rfl : [] = fs := Except.ok.inj h
    exact ⟨.refl _, rfl, fun v hv => by cases hv⟩
  | n :: ns, ctx, fs, hfits, h => by
    rw [factsAll] at h
    obtain ⟨first, hfirst, h⟩ := except_bind_eq_ok_iff.1 h
    obtain ⟨rest, hrest, h⟩ := except_bind_eq_ok_iff.1 h
    obtain rfl := Except.ok.inj h
    obtain ⟨hperm, hlate, hall⟩ := facts_ok n ctx first (hfits n List.mem_cons_self) hfirst
    obtain ⟨hperm', hlate', hall'⟩ := factsAll_ok ns ctx rest (fun m hm => hfits m (List.mem_cons_of_mem _ hm)) hrest
    rw [visitsAll, visitsUpAll, List.flatMap_append, Fact.late_append, List.flatMap_append, hlate, hlate']
    exact ⟨hperm.append hperm', rfl, fun v hv => (List.mem_append.1 hv).elim (hall v) (hall' v)⟩

end

/-- **What is read off the facts of a tree**, the unlocks left aside, comes node by node in the order of what is mounted. -/
theorem filterMap_facts {n : Node} {ctx : Context} {fs : List Fact} (hfits : n.Fits) (h : n.facts ctx = .ok fs) {β : Type}
    {g : Fact → Option β} (hg : ∀ name device keyFile, g (.unlock name device keyFile) = none) :
    fs.filterMap g = (n.visitsUp ctx).flatMap (fun v => v.facts.filterMap g) := by
  rw [← Fact.filterMap_late hg, (facts_ok n ctx fs hfits h).2.1, List.filterMap_flatMap]
  simp only [Fact.filterMap_late hg]

mutual

theorem facts_with_root : ∀ (n : Node) (ctx : Context) (root : String), n.facts { ctx with root := root } = n.facts ctx
  | ⟨key, spec, hooks, children⟩, ctx, root => by
    have hbelow : factsBelow ⟨key, spec, hooks, children⟩ { ctx with root := root } =
        factsBelow ⟨key, spec, hooks, children⟩ ctx := by
      unfold factsBelow
      dsimp only
      rw [Spec.enter_with_root]
      cases spec.enter ctx with
      | error e => rfl
      | ok inner => split <;> [exact factsAll_with_root children inner root; rfl]
    rw [facts_eq, facts_eq, hbelow, Spec.factsBefore_congr spec ctx root ctx.members,
      Spec.factsAfter_congr spec ctx root ctx.members]
    simp only [Spec.factsWritten_with_root]

theorem factsAll_with_root : ∀ (ns : List Node) (ctx : Context) (root : String),
    factsAll ns { ctx with root := root } = factsAll ns ctx
  | [], _, _ => rfl
  | n :: ns, ctx, root => by
    rw [factsAll, factsAll, facts_with_root n, factsAll_with_root ns]

end

end Node

namespace Device

def mounted (d : Device) (root : String) : List (String × Value) :=
  (d.node.visitsUp (d.context root [])).filterMap Visit.mounted?

theorem filterMap_mounted?_facts {d : Device} {root : String} {fs : List Fact} (hfits : d.node.Fits)
    (h : d.node.facts (d.context root []) = .ok fs) : fs.filterMap Fact.mounted? = d.mounted root := by
  rw [Node.filterMap_facts hfits h (fun _ _ _ => rfl), mounted, List.filterMap_eq_flatMap_toList]
  simp only [Visit.filterMap_mounted?_facts]

theorem mounted_eq (d : Device) (root : String) :
    d.mounted root = (d.mountings root).filterMap (fun e => e.2.source?.map (e.1, ·)) := by
  rw [mounted, mountings, List.filterMap_filterMap]
  rfl

end Device

namespace Layout

theorem facts_of_devices {root : String} {ds : List Device} {parts : List (List Fact)} (hfits : ∀ d ∈ ds, d.node.Fits)
    (h : List.Forall₂ (fun (d : Device) part => d.node.facts { parent := some d.ref } = .ok part) ds parts) :
    parts.flatten.Perm (ds.flatMap (fun d => (d.visits root []).flatMap Visit.facts)) ∧
      parts.flatten.filterMap Fact.mounted? = ds.flatMap (·.mounted root) ∧
      ∀ d ∈ ds, ∀ v ∈ d.visits root [], v.node.spec.factsBefore v.ctx = .ok v.factsBefore := by
  induction h with
  | nil => exact ⟨.refl _, rfl, fun d hd => by cases hd⟩
  | @cons d part ds parts hpart _ ih =>
    rw [← Node.facts_with_root _ _ root] at hpart
    obtain ⟨hperm, -, hall⟩ := Node.facts_ok d.node (d.context root []) part (hfits d List.mem_cons_self) hpart
    obtain ⟨ihperm, ihmounted, ihall⟩ := ih (fun e he => hfits e (List.mem_cons_of_mem _ he))
    rw [List.flatten_cons, List.filterMap_append, d.filterMap_mounted?_facts (hfits d List.mem_cons_self) hpart, ihmounted]
    exact ⟨hperm.append ihperm, rfl, List.forall_mem_cons.2 ⟨hall, ihall⟩⟩

/-- **The facts of a layout** are those of the nodes that its walks meet; its filesystems come device by device, in the order
of declaration. -/
theorem facts_ok {l : Layout} (hl : l.WellFormed) {fs : List Fact} (h : l.facts = .ok fs) (root : String) :
    fs.Perm (l.devices.flatMap (fun d => (d.visits root []).flatMap Visit.facts)) ∧
      fs.filterMap Fact.mounted? = l.devices.flatMap (·.mounted root) ∧
      ∀ d ∈ l.devices, ∀ v ∈ d.visits root [], v.node.spec.factsBefore v.ctx = .ok v.factsBefore := by
  obtain ⟨parts, hparts, h⟩ := except_bind_eq_ok_iff.1 h
  obtain rfl := Except.ok.inj h
  exact facts_of_devices hl.fits (except_mapM_eq_ok_iff.1 hparts)

theorem texts_of_mem_facts {l : Layout} (hl : l.WellFormed) {fs : List Fact} (h : l.facts = .ok fs)
    {mountpoint device fsType : Value} {options : List Value} (hm : Fact.filesystem mountpoint device fsType options ∈ fs) :
    ∃ m os, mountpoint = .text m ∧ options = Spec.optionValues os := by
  obtain ⟨hcontributed, -, -⟩ := facts_ok hl h ""
  obtain ⟨d, -, hd⟩ := List.mem_flatMap.1 (hcontributed.mem_iff.1 hm)
  obtain ⟨v, -, hv⟩ := List.mem_flatMap.1 hd
  exact Visit.texts_of_mem_facts hv

end Layout

end Provision
