import Provision.Proofs.Layout.Sites
import Provision.Proofs.Outcome
import Provision.Proofs.Walks
/-!
# The order of activation

The mount script is a list of parts (`Layout.mountParts`): headings, hooks, the activations of the nodes that are met,
each at its site, and the mounts.  A node is activated after the nodes that enclose it, since a walk meets these first;
a device after the devices that feed it, since it is placed after these; and nothing is mounted before all is activated
(`activations_ordered`).
-/
namespace Provision

open Value (entry node)

inductive MountPart where
  | heading (text : String)
  | hook (snippet : String)
  /-- An activation of the node at a site. -/
  | activation (site : Site) (a : Activation)
  | mount (path : String) (m : Mounting)

namespace MountPart

def text : MountPart → String
  | heading text => text
  | hook snippet => hookScript snippet
  | activation _ a => a.script
  | mount _ m => m.script

def activation? : MountPart → Option (Site × Activation)
  | activation site a => some (site, a)
  | _ => none

theorem activation?_eq_some_iff {p : MountPart} {s : Site × Activation} :
    p.activation? = some s ↔ p = .activation s.1 s.2 := by
  cases p <;> simp [activation?, Prod.ext_iff]

/-- The parts that steps make, where the commands among them are those of the sites given. -/
def ofSteps : List (Step Activation) → List (Site × Activation) → List MountPart
  | .frame kind label :: ss, as => .heading ("# " ++ Step.title kind label ++ "\n") :: ofSteps ss as
  | .hook snippet :: ss, as => .hook snippet :: ofSteps ss as
  | .run _ :: ss, (site, a) :: as => .activation site a :: ofSteps ss as
  | .run _ :: _, [] | [], _ => []

theorem map_text_ofSteps : ∀ (ss : List (Step Activation)) (as : List (Site × Activation)),
    Step.commands ss = as.map Prod.snd → (ofSteps ss as).map text = ss.map (Step.script Activation.script)
  | [], _, _ => rfl
  | .frame kind label :: ss, as, h => congrArg (_ :: ·) (map_text_ofSteps ss as h)
  | .hook snippet :: ss, as, h => congrArg (_ :: ·) (map_text_ofSteps ss as h)
  | .run _ :: ss, [], h => by cases h
  | .run a :: ss, (site, b) :: as, h => by
    obtain ⟨rfl, hrest⟩ := List.cons.inj h
    exact congrArg (_ :: ·) (map_text_ofSteps ss as hrest)

theorem filterMap_activation?_ofSteps : ∀ (ss : List (Step Activation)) (as : List (Site × Activation)),
    Step.commands ss = as.map Prod.snd → (ofSteps ss as).filterMap activation? = as
  | [], [], _ => rfl
  | .frame .. :: ss, as, h => filterMap_activation?_ofSteps ss as h
  | .hook _ :: ss, as, h => filterMap_activation?_ofSteps ss as h
  | .run _ :: ss, [], h => by cases h
  | .run a :: ss, (site, b) :: as, h => by
    obtain ⟨-, hrest⟩ := List.cons.inj h
    exact congrArg ((site, b) :: ·) (filterMap_activation?_ofSteps ss as hrest)

theorem not_mount_mem_ofSteps {path : String} {m : Mounting} :
    ∀ {ss : List (Step Activation)} {as : List (Site × Activation)},
    .mount path m ∉ ofSteps ss as
  | [], _ => List.not_mem_nil
  | .frame .. :: _, _ => fun h => not_mount_mem_ofSteps ((List.mem_cons.1 h).resolve_left MountPart.noConfusion)
  | .hook _ :: _, _ => fun h => not_mount_mem_ofSteps ((List.mem_cons.1 h).resolve_left MountPart.noConfusion)
  | .run _ :: _, [] => List.not_mem_nil
  | .run _ :: _, _ :: _ => fun h =>
    not_mount_mem_ofSteps ((List.mem_cons.1 h).resolve_left MountPart.noConfusion)

end MountPart

namespace Order

theorem Respects.idxOf_lt {edges : List Edge} {order : List DeviceRef} (h : Respects edges order) {p c : DeviceRef}
    (hf : Feeds edges p c) (hc : c ∈ order) : order.idxOf p < order.idxOf c := by
  obtain ⟨before, after, rfl, hfresh⟩ := List.eq_append_cons_of_mem hc
  have hp : p ∈ before := h before c after rfl _ hf rfl
  rw [List.idxOf_append_of_mem hp, List.idxOf_append_of_notMem hfresh, List.idxOf_cons_self, Nat.add_zero]
  exact List.idxOf_lt_length_of_mem hp

theorem Respects.idxOf_lt_of_transGen {edges : List Edge} {order : List DeviceRef} (h : Respects edges order)
    (hlisted : ∀ e ∈ edges, e.consumer ∈ order) {p c : DeviceRef} (hf : Relation.TransGen (Feeds edges) p c) :
    order.idxOf p < order.idxOf c := by
  induction hf with
  | single hf => exact h.idxOf_lt hf (hlisted _ hf)
  | tail _ hf ih => exact ih.trans (h.idxOf_lt hf (hlisted _ hf))

end Order

namespace Layout

def activations (l : Layout) (root : String) (order : List DeviceRef) : List (Site × Activation) :=
  (l.sited root order).flatMap (fun s => s.2.activations.map (s.1, ·))

def mountParts (l : Layout) (root : String) (order : List DeviceRef) (f : MountFragment) : List MountPart :=
  (.heading mountPreamble :: .heading "# activate devices\n" :: MountPart.ofSteps f.activation (l.activations root order)) ++
    .heading "\n# mount filesystems\n" :: f.mounts.sorted.map (fun m => .mount m.1 m.2)

/-- **What has to come before what** in the mount script: an activation before those of the nodes that its node encloses,
before those of the devices that its device feeds, directly or through others, and before every mount. -/
inductive MustPrecede (l : Layout) : MountPart → MountPart → Prop
  | encloses {s t : Site} (a b : Activation) (h : s.Encloses t) : MustPrecede l (.activation s a) (.activation t b)
  | feeds {s t : Site} (a b : Activation) (h : Relation.TransGen l.Feeds s.device t.device) :
    MustPrecede l (.activation s a) (.activation t b)
  | mount (s : Site) (a : Activation) (path : String) (m : Mounting) : MustPrecede l (.activation s a) (.mount path m)

theorem map_snd_activations (l : Layout) (root : String) (order : List DeviceRef) :
    (l.activations root order).map Prod.snd =
      (l.inOrder order).flatMap (fun d => (d.visits root []).flatMap Visit.activations) := by
  rw [activations, List.map_flatMap, ← List.flatMap_assoc, ← map_snd_sited, List.flatMap_map]
  simp only [List.map_map, Function.comp_def, List.map_id']

theorem mem_activations_iff {l : Layout} {root : String} {order : List DeviceRef} {s : Site} {a : Activation} :
    (s, a) ∈ l.activations root order ↔ ∃ v, (s, v) ∈ l.sited root order ∧ a ∈ v.activations := by
  simp only [activations, List.mem_flatMap, List.mem_map, Prod.mk.injEq]
  constructor
  · rintro ⟨⟨_, v⟩, hv, _, ha, rfl, rfl⟩
    exact ⟨v, hv, ha⟩
  · rintro ⟨v, hv, ha⟩
    exact ⟨(s, v), hv, a, ha, rfl, rfl⟩

section Fragment

variable {l : Layout} {root : String} {order : List DeviceRef} {f : MountFragment}
  (hf : (l.mountFragment root order).outcome = .ok f)
include hf

theorem commands_activation : Step.commands f.activation = (l.activations root order).map Prod.snd := by
  rw [map_snd_activations]
  exact (mountFragment_ok hf).1

theorem join_mountParts : String.join ((l.mountParts root order f).map MountPart.text) = mountText f := by
  rw [mountParts, List.map_append, List.map_cons, List.map_cons, List.map_cons,
    MountPart.map_text_ofSteps _ _ (commands_activation hf), List.map_map]
  simp only [MountPart.text, String.join_append, String.join_cons, mountText, activationText, String.append_assoc]
  rfl

theorem filterMap_activation?_mountParts :
    (l.mountParts root order f).filterMap MountPart.activation? = l.activations root order := by
  rw [mountParts, List.filterMap_append, List.filterMap_cons_none rfl, List.filterMap_cons_none rfl,
    List.filterMap_cons_none rfl, MountPart.filterMap_activation?_ofSteps _ _ (commands_activation hf), List.filterMap_map]
  simp [Function.comp_def, MountPart.activation?]

omit hf in
theorem mount_mem_mountParts_iff {path : String} {m : Mounting} :
    .mount path m ∈ l.mountParts root order f ↔ (path, m) ∈ f.mounts := by
  rw [mountParts, List.mem_append, ← (List.mergeSort_perm f.mounts (fun a b => a.1 ≤ b.1)).mem_iff]
  simp only [List.mem_cons, List.mem_map, reduceCtorEq, false_or, MountPart.mount.injEq, MountPart.not_mount_mem_ofSteps]
  constructor
  · rintro ⟨_, he, rfl, rfl⟩
    exact he
  · exact fun he => ⟨_, he, rfl, rfl⟩

theorem activation_mem_mountParts_iff {s : Site} {a : Activation} :
    .activation s a ∈ l.mountParts root order f ↔ ∃ v, (s, v) ∈ l.sited root order ∧ a ∈ v.activations := by
  rw [← mem_activations_iff, ← filterMap_activation?_mountParts hf, List.mem_filterMap]
  simp only [MountPart.activation?_eq_some_iff, exists_eq_right]

end Fragment

section Sorted

variable {l : Layout} (hl : l.WellFormed) {m : Value.Entries} (hm : l.metadata = .ok m) {order : List DeviceRef}
  (hs : Requirement.sort (Metadata.requirements m) l.refs = .ok order)
include hl hm hs

theorem WellFormed.idxOf_lt_of_feeds {p c : DeviceRef} (hf : Relation.TransGen l.Feeds p c) :
    order.idxOf p < order.idxOf c := by
  have hsort := Requirement.sort_eq_ok hs
  rw [← feeds_eq hm] at hf
  exact (Order.respects_of_sort hl.nodup hsort).idxOf_lt_of_transGen
    (fun e he => (Order.perm_of_sort hl.nodup hsort).mem_iff.2 (Order.mem_between.1 he).2.2) hf

/-- **No node is met before one that encloses it, or before one of a device that feeds its own.** -/
theorem WellFormed.pairwise_activations (root : String) : (l.activations root order).Pairwise
    (fun s t => ¬ t.1.Encloses s.1 ∧ ¬ Relation.TransGen l.Feeds t.1.device s.1.device) := by
  have hperm := Order.perm_of_sort hl.nodup (Requirement.sort_eq_ok hs)
  have hlt {p c : DeviceRef} (hf : Relation.TransGen l.Feeds p c) : order.idxOf p < order.idxOf c :=
    hl.idxOf_lt_of_feeds hm hs hf
  have hdevices : (l.inOrder order).Pairwise (fun d e => order.idxOf d.ref < order.idxOf e.ref) := by
    rw [← List.pairwise_map (f := Device.ref) (R := fun p q => order.idxOf p < order.idxOf q), map_ref_inOrder hperm.subset,
      List.pairwise_iff_getElem]
    intro i j hi hj hij
    rwa [(hperm.nodup_iff.2 hl.nodup).idxOf_getElem, (hperm.nodup_iff.2 hl.nodup).idxOf_getElem]
  have hsited : (l.sited root order).Pairwise (fun s t => order.idxOf s.1.device ≤ order.idxOf t.1.device) := by
    rw [sited, List.pairwise_flatMap]
    refine ⟨fun d _ => List.pairwise_of_forall_mem_list (fun s hs t ht => ?_), hdevices.imp (fun h s hs t ht => ?_)⟩
    · rw [Device.device_of_mem_sited hs, Device.device_of_mem_sited ht]
    · rw [Device.device_of_mem_sited hs, Device.device_of_mem_sited ht]
      exact h.le
  rw [activations, List.pairwise_flatMap]
  refine ⟨fun s _ => ?_, (hl.pairwise_sited root hperm |>.and hsited).imp (fun h x hx y hy => ?_)⟩
  · rw [List.pairwise_map]
    exact List.pairwise_of_forall (fun _ _ => ⟨s.1.not_encloses_self, fun hf => (hlt hf).false⟩)
  · obtain ⟨_, -, rfl⟩ := List.mem_map.1 hx
    obtain ⟨_, -, rfl⟩ := List.mem_map.1 hy
    exact ⟨h.1.2, fun hf => (hlt hf).not_ge h.2⟩

theorem WellFormed.pairwise_mountParts {root : String} {f : MountFragment}
    (hf : (l.mountFragment root order).outcome = .ok f) :
    (l.mountParts root order f).Pairwise (fun p q => ¬ l.MustPrecede q p) := by
  have hactivations : (l.mountParts root order f).Pairwise (fun p q => ∀ s, p.activation? = some s → ∀ t,
      q.activation? = some t → ¬ t.1.Encloses s.1 ∧ ¬ Relation.TransGen l.Feeds t.1.device s.1.device) := by
    rw [← List.pairwise_filterMap, filterMap_activation?_mountParts hf]
    exact hl.pairwise_activations hm hs root
  -- activations and mounts stand in different halves of the script
  have hmounts : (l.mountParts root order f).Pairwise (fun p q => ∀ path m, p = .mount path m → q.activation? = none) := by
    rw [mountParts, List.pairwise_append]
    refine ⟨List.pairwise_of_forall_mem_list (fun p hp q _ path m h => ?_), ?_, fun p _ q hq _ _ _ => ?_⟩
    · subst h
      simp only [List.mem_cons, reduceCtorEq, false_or] at hp
      exact absurd hp MountPart.not_mount_mem_ofSteps
    · refine List.pairwise_of_forall_mem_list (fun p _ q hq _ _ _ => ?_)
      rcases List.mem_cons.1 hq with rfl | hq
      · rfl
      · obtain ⟨_, -, rfl⟩ := List.mem_map.1 hq
        rfl
    · rcases List.mem_cons.1 hq with rfl | hq
      · rfl
      · obtain ⟨_, -, rfl⟩ := List.mem_map.1 hq
        rfl
  refine (hactivations.and hmounts).imp (fun {p q} h hprecede => ?_)
  cases hprecede with
  | encloses a b hencloses => exact (h.1 _ rfl _ rfl).1 hencloses
  | feeds a b hfeeds => exact (h.1 _ rfl _ rfl).2 hfeeds
  | mount s a path m => cases h.2 path m rfl

theorem WellFormed.not_mustPrecede_self {p : MountPart} : ¬ l.MustPrecede p p := by
  rintro (⟨_, _, h⟩ | ⟨_, _, h⟩)
  · exact Site.not_encloses_self _ h
  · exact (hl.idxOf_lt_of_feeds hm hs h).false

end Sorted

theorem feeds_of_mem_memberships {l : Layout} {d : Device} (hd : d ∈ l.devices) {group : Group} {name : String}
    (hm : (group, .text name) ∈ d.node.memberships) (hlisted : ⟨group.name, name⟩ ∈ l.refs) :
    l.Feeds d.ref ⟨group.name, name⟩ := by
  rw [Node.memberships_eq_filterMap] at hm
  obtain ⟨n, hn, hm⟩ := List.mem_filterMap.1 hm
  exact ⟨hlisted, d, hd, rfl, n, hn, group, rfl, hm⟩

theorem Walked.perm_node_sited {l : Layout} {root : String} {c : Compiled} {vs : List Visit} (h : l.Walked root c vs) :
    ((l.sited root c.order).map (·.2.node)).Perm l.placed := by
  have hnodes : (l.sited root c.order).map (·.2.node) = vs.map Visit.node := by
    rw [← Function.comp_def Visit.node, ← List.map_map, map_snd_sited, ← h.contexts, List.map_map]
    rfl
  exact hnodes ▸ h.perm_placed

end Layout

/-- **Devices are activated in the order in which they depend on each other.**  The mount script of a layout that compiles is
made of parts; the activations among them are those of its placed nodes, each at the site of its node.  A part stands before
every part that it has to precede: an activation before those of the nodes that its node encloses, before those of all nodes
below a device that its own device feeds, directly or through others, and before every mount and every swap device. -/
theorem activations_ordered {tree : Value} {root : String} {c : Compiled} (h : (compile tree root).outcome = .ok c) :
    ∃ (l : Layout) (f : MountFragment), (Layout.read tree).outcome = .ok l ∧ (l.mountFragment root c.order).outcome = .ok f ∧
      ((l.sited root c.order).map (·.2.node)).Perm l.placed ∧
      (∀ s v, (s, v) ∈ l.sited root c.order → l.at? s = some v.node) ∧
      let parts := l.mountParts root c.order f
      c.mountScript = String.join (parts.map MountPart.text) ∧
      (∀ s a, .activation s a ∈ parts ↔ ∃ v, (s, v) ∈ l.sited root c.order ∧ a ∈ v.activations) ∧
      (∀ path m, .mount path m ∈ parts ↔ (path, m) ∈ f.mounts) ∧
      ∀ (i j : Nat) (p q : MountPart), parts[i]? = some p → parts[j]? = some q → l.MustPrecede p q → i < j := by
  obtain ⟨l, hl, hmeta, hs, -, -⟩ := compile_ok h
  obtain ⟨f, hf, hmount, -⟩ := compile_mounts h hl
  obtain ⟨l', hl', -, hwalked⟩ := Layout.walked_of_compile h
  cases hl.symm.trans hl'
  have hwell := Layout.wellFormed_of_read hl
  have hpairwise := hwell.pairwise_mountParts hmeta hs hf
  refine ⟨l, f, hl, hf, hwalked.perm_node_sited, fun s v hv => hwell.at?_of_mem_sited hv, ?_, ?_, ?_, ?_⟩
  · rw [hmount, Layout.join_mountParts hf]
  · exact fun s a => Layout.activation_mem_mountParts_iff hf
  · exact fun path m => Layout.mount_mem_mountParts_iff
  · intro i j p q hi hj hprecede
    rcases Nat.lt_trichotomy i j with hij | rfl | hji
    · exact hij
    · obtain rfl := Option.some.inj (hi.symm.trans hj)
      exact absurd hprecede (hwell.not_mustPrecede_self hmeta hs)
    · obtain ⟨hi', rfl⟩ := List.getElem?_eq_some_iff.1 hi
      obtain ⟨hj', rfl⟩ := List.getElem?_eq_some_iff.1 hj
      exact absurd hprecede (List.pairwise_iff_getElem.1 hpairwise j i hj' hi' hji)

/-- A group in a container on a volume of another group on an array: of the two groups the one that holds the other comes
first, though it is listed after it. -/
theorem activations_ordered_of_group_in_group :
    let tree : Value := .map [
      entry "disk" (.map [entry "a" (node "disk" [entry "device" (.text "/dev/sda"),
        entry "content" (node "mdraid" [entry "name" (.text "md")])])]),
      entry "mdadm" (.map [entry "md" (node "mdadm" [entry "level" (.int 1),
        entry "content" (node "lvm_pv" [entry "vg" (.text "outer")])])]),
      entry "lvm_vg" (.map [
        entry "inner" (node "lvm_vg" [entry "lvs" (.map [entry "root" (node "lvm_lv" [entry "size" (.text "1G"),
          entry "content" (node "filesystem" [entry "format" (.text "ext4"), entry "mountpoint" (.text "/")])])])]),
        entry "outer" (node "lvm_vg" [entry "lvs" (.map [entry "crypt" (node "lvm_lv" [entry "size" (.text "2G"),
          entry "content" (node "luks" [entry "name" (.text "crypt"),
            entry "content" (node "lvm_pv" [entry "vg" (.text "inner")])])])])])])]
    let array : Site := ⟨⟨"mdadm", "md"⟩, []⟩
    let outer : Site := ⟨⟨"lvm_vg", "outer"⟩, []⟩
    let container : Site := ⟨⟨"lvm_vg", "outer"⟩, [0, 0]⟩
    let inner : Site := ⟨⟨"lvm_vg", "inner"⟩, []⟩
    ∃ c l f, (compile tree "/mnt").outcome = .ok c ∧ (Layout.read tree).outcome = .ok l ∧
      (l.mountFragment "/mnt" c.order).outcome = .ok f ∧
      (l.activations "/mnt" c.order).map (·.1) = [array, outer, container, inner] ∧
      ∀ (i j : Nat) (s t : Site) (a b : Activation),
        (s, t) ∈ [(array, container), (outer, container), (outer, inner), (container, inner)] →
        (l.mountParts "/mnt" c.order f)[i]? = some (.activation s a) →
        (l.mountParts "/mnt" c.order f)[j]? = some (.activation t b) → i < j := by
  intro tree array outer container inner
  have hchecked : (Layout.read tree).outcome.toOption.bind (fun l => (compile tree "/mnt").outcome.toOption.map (fun c =>
      ((l.activations "/mnt" c.order).map (·.1), [(array, "outer"), (outer, "inner")].all (fun e =>
        l.refs.contains ⟨"lvm_vg", e.2⟩ && l.devices.any (fun d => d.ref == e.1.device &&
          d.node.memberships.any (fun m => m.1 == .volumeGroup && Value.same (.text e.2) m.2)))))) =
      some ([array, outer, container, inner], true) := by decide +kernel
  obtain ⟨l, hl, hchecked⟩ := Option.bind_eq_some_iff.1 hchecked
  obtain ⟨c, hc, hchecked⟩ := Option.map_eq_some_iff.1 hchecked
  obtain ⟨hsites, hmembers⟩ := Prod.mk.inj hchecked
  have hfeeds (s : Site) (name : String) (hs : (s, name) ∈ [(array, "outer"), (outer, "inner")]) :
      l.Feeds s.device ⟨"lvm_vg", name⟩ := by
    obtain ⟨hlisted, hmember⟩ := Bool.and_eq_true_iff.1 (List.all_eq_true.1 hmembers _ hs)
    obtain ⟨d, hd, hmember⟩ := List.any_eq_true.1 hmember
    obtain ⟨hd', hmember⟩ := Bool.and_eq_true_iff.1 hmember
    obtain ⟨m, hm, hmember⟩ := List.any_eq_true.1 hmember
    obtain ⟨hgroup, hname⟩ := Bool.and_eq_true_iff.1 hmember
    obtain ⟨group, name'⟩ := m
    obtain rfl := beq_iff_eq.1 hgroup
    obtain rfl := Value.same_text_iff.1 hname
    exact beq_iff_eq.1 hd' ▸ Layout.feeds_of_mem_memberships hd hm (List.contains_iff_mem.1 hlisted)
  replace hc := eq_ok_of_toOption hc
  obtain ⟨l', f, hl', hf, -, -, -, -, -, hbefore⟩ := activations_ordered hc
  cases (eq_ok_of_toOption hl).symm.trans hl'
  refine ⟨c, l, f, hc, hl', hf, hsites, fun i j s t a b hst hi hj => hbefore i j _ _ hi hj ?_⟩
  simp only [List.mem_cons, Prod.mk.injEq, List.not_mem_nil, or_false] at hst
  rcases hst with ⟨rfl, rfl⟩ | ⟨rfl, rfl⟩ | ⟨rfl, rfl⟩ | ⟨rfl, rfl⟩
  · exact .feeds a b (.single (hfeeds array "outer" (by simp)))
  · exact .encloses a b (by decide)
  · exact .feeds a b (.single (hfeeds outer "inner" (by simp)))
  · exact .feeds a b (.single (hfeeds outer "inner" (by simp)))

end Provision
