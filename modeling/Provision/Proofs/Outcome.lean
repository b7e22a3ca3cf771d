import Provision.Proofs.Layout.Naming
import Provision.Proofs.Mount.Devices
import Provision.Proofs.Order.Cycle
/-!
# When a layout compiles

A typed layout has its metadata, so it has an order unless its devices feed each other in a loop.  All its visits are sound
(`Layout.WellFormed.sound_of_mem_visits`), also in a creation, where devices see what others recorded.  What remains are
the names of partitions and the numbers that a creation writes: it ends at the first node that has none, and if there is no
such node all walks succeed (`compiles_iff`).
-/
namespace Provision

open Value (entry node)

namespace Layout

/-- **Whether a device feeds another**: a node below it is a member of that aggregate, by its group and its key. -/
def Feeds (l : Layout) (producer consumer : DeviceRef) : Prop :=
  consumer ∈ l.refs ∧ ∃ d ∈ l.devices, d.ref = producer ∧ ∃ n ∈ d.node.subnodes, ∃ group : Group,
    consumer.group = group.name ∧ n.spec.membership? = some (group, .text consumer.name)

theorem feeds_iff {l : Layout} {m : Value.Entries} (hm : l.metadata = .ok m) (producer consumer : DeviceRef) :
    Order.Feeds (Order.between l.refs ((Metadata.requirements m).flatMap Requirement.edges)) producer consumer ↔
      l.Feeds producer consumer := by
  simp only [Order.Feeds, Order.mem_between, mem_edges_iff hm, Node.memberships_eq_filterMap, List.mem_filterMap]
  constructor
  · rintro ⟨⟨d, hd, ⟨group, name⟩, ⟨n, hn, hmember⟩, hgroup, rfl, hproducer⟩, -, hconsumer⟩
    exact ⟨hconsumer, d, hd, hproducer.symm, n, hn, group, hgroup, hmember⟩
  · rintro ⟨hconsumer, d, hd, rfl, n, hn, group, hgroup, hmember⟩
    exact ⟨⟨d, hd, _, ⟨n, hn, hmember⟩, hgroup, rfl, rfl⟩, List.mem_map_of_mem hd, hconsumer⟩

theorem feeds_eq {l : Layout} {m : Value.Entries} (hm : l.metadata = .ok m) :
    Order.Feeds (Order.between l.refs ((Metadata.requirements m).flatMap Requirement.edges)) = l.Feeds :=
  funext fun producer => funext fun consumer => propext (feeds_iff hm producer consumer)

theorem outcome_createDevices {root : String} : ∀ (ds : List Device) (ms : List Recording),
    (∀ v ∈ creationVisits root ds ms, v.Sound) →
    (createDevices root ds ms).outcome = forM (creationVisits root ds ms) Visit.check
  | [], _, _ => rfl
  | d :: ds, ms, h => by
    rw [creationVisits, List.forall_mem_append] at h
    have hwalk : (d.node.create (d.context root ms)).outcome = forM (d.visits root ms) Visit.check :=
      Node.outcome_create _ _ h.1
    rw [creationVisits, List.forM_append, ← hwalk, createDevices]
    simp only [Traced.outcome_bind, Creation.outcome_log, logDebug, Traced.outcome_tell]
    cases hc : (d.node.create (d.context root ms)).outcome with
    | error e => rfl
    | ok u =>
      obtain ⟨-, hrecordings, -⟩ := Device.walk_ok hc
      rw [hrecordings]
      exact outcome_createDevices ds _ h.2

theorem forM_check_creationVisits (root : String) (ds : List Device) (ms : List Recording) :
    forM (creationVisits root ds ms) Visit.check = forM (ds.flatMap (·.visits root [])) Visit.check := by
  rw [← map_withMembers_creationVisits root ds ms, List.forM_map]
  simp only [Visit.check_withMembers]

section Typed

variable {l : Layout} (hl : l.WellFormed) (ht : ∀ n ∈ l.nodes, n.spec.isTyped = true)
include hl ht

theorem WellFormed.sound_of_mem_visits {d : Device} (hd : d ∈ l.devices) (root : String) {ms : List Recording}
    (hms : ∀ r ∈ ms, r.device.isText = true) : ∀ v ∈ d.visits root ms, v.Sound := by
  refine Node.sound_of_mem_visits d.node _ (hl.fits d hd) (fun m hm => ht m (mem_nodes_iff.2 ⟨d, hd, hm⟩)) ⟨rfl, rfl, rfl⟩
    (fun p hp => ?_) hms
  obtain ⟨e, he, hp⟩ := List.mem_filterMap.1 (hl.base?_mem_diskDevices hd _ p hp)
  have hdisk := ht e.node (mem_nodes_iff.2 ⟨e, he, Node.mem_subnodes_iff.2 (.inl rfl)⟩)
  split at hp
  · rename_i name device hspec
    rw [hspec, Spec.isTyped, Bool.and_eq_true] at hdisk
    cases hp
    exact hdisk.2
  · cases hp

theorem WellFormed.sound_of_mem_creationVisits {root : String} : ∀ {ds : List Device} {ms : List Recording},
    (∀ d ∈ ds, d ∈ l.devices) → (∀ r ∈ ms, r.device.isText = true) → ∀ v ∈ creationVisits root ds ms, v.Sound
  | d :: ds, ms, hds, hms, v, hv => by
    obtain ⟨hd, hrest⟩ := List.forall_mem_cons.1 hds
    have hsound := hl.sound_of_mem_visits ht hd root hms
    rcases List.mem_append.1 hv with hv | hv
    · exact hsound v hv
    · refine WellFormed.sound_of_mem_creationVisits hrest (fun r hr => ?_) v hv
      rcases List.mem_append.1 hr with hr | hr
      · exact hms r hr
      · rw [← d.filterMap_recording?_visits root ms] at hr
        obtain ⟨w, hw, hr⟩ := List.mem_filterMap.1 hr
        exact (hsound w hw).isText_of_recording? hr

/-- **The creation of a typed layout** ends at the first node where something ends it. -/
theorem WellFormed.outcome_creation (root : String) (order : List DeviceRef) :
    (l.creation root order).outcome = forM ((l.inOrder order).flatMap (·.visits root [])) Visit.check := by
  rw [← forM_check_creationVisits root _ [], creation]
  exact outcome_createDevices _ _ (hl.sound_of_mem_creationVisits ht (fun d hd => mem_of_mem_inOrder hd)
    (List.forall_mem_nil _))

theorem WellFormed.exists_mountDevices {root : String} : ∀ {ds : List Device} (acc : MountFragment),
    (∀ d ∈ ds, d ∈ l.devices) → (∀ v ∈ ds.flatMap (·.visits root []), v.naming = .ok ()) →
    ∃ f, (mountDevices root ds acc).outcome = .ok f
  | [], acc, _, _ => ⟨acc, rfl⟩
  | d :: ds, acc, hds, hnaming => by
    obtain ⟨hd, hrest⟩ := List.forall_mem_cons.1 hds
    rw [List.flatMap_cons, List.forall_mem_append] at hnaming
    have hsound := hl.sound_of_mem_visits ht hd root (List.forall_mem_nil _)
    obtain ⟨g, hg⟩ := Node.exists_mount d.node (d.context root []) fun v hv => ⟨hsound v hv, hnaming.1 v hv⟩
    obtain ⟨f, hf⟩ := WellFormed.exists_mountDevices _ hrest hnaming.2
    rw [mountDevices]
    exact ⟨f, Traced.outcome_bind_eq_ok_iff.2 ⟨g, hg, Traced.outcome_bind_eq_ok_iff.2 ⟨_, Fragment.outcome_add acc g, hf⟩⟩⟩

omit hl in
theorem exists_metadata : ∃ m, l.metadata = .ok m := by
  have hdevice (d : Device) (hd : d ∈ l.devices) : ∃ m, d.node.metadata (some d.ref) = .ok m :=
    Node.exists_metadata (fun m hm => ht m (mem_nodes_iff.2 ⟨d, hd, hm⟩)) _
  obtain ⟨parts, hparts⟩ := exists_except_mapM hdevice
  exact ⟨_, except_bind_eq_ok_iff.2 ⟨parts, hparts, rfl⟩⟩

omit hl in
theorem exists_tools : ∃ ts, l.tools = .ok ts := by
  have hdevice (d : Device) (hd : d ∈ l.devices) : ∃ ts, d.node.tools = .ok ts :=
    Node.exists_tools _ fun m hm => ht m (mem_nodes_iff.2 ⟨d, hd, hm⟩)
  obtain ⟨parts, hparts⟩ := exists_except_mapM hdevice
  exact ⟨_, except_bind_eq_ok_iff.2 ⟨parts, hparts, rfl⟩⟩

theorem WellFormed.exists_facts (root : String) (hnaming : ∀ d ∈ l.devices, ∀ v ∈ d.visits root [], v.naming = .ok ()) :
    ∃ fs, l.facts = .ok fs := by
  have hdevice (d : Device) (hd : d ∈ l.devices) : ∃ fs, d.node.facts { parent := some d.ref } = .ok fs := by
    rw [← Node.facts_with_root d.node _ root]
    exact Node.exists_facts d.node (d.context root []) fun v hv =>
      ⟨hl.sound_of_mem_visits ht hd root (List.forall_mem_nil _) v hv, hnaming d hd v hv⟩
  obtain ⟨parts, hparts⟩ := exists_except_mapM hdevice
  exact ⟨_, except_bind_eq_ok_iff.2 ⟨parts, hparts, rfl⟩⟩

end Typed

end Layout

theorem outcome_compile {tree : Value} {l : Layout} {m : Value.Entries} (hl : (Layout.read tree).outcome = .ok l)
    (hm : l.metadata = .ok m) (root : String) :
    (compile tree root).outcome = Requirement.sort (Metadata.requirements m) l.refs >>= fun order =>
      (l.creation root order).outcome >>= fun _ =>
      (l.mountFragment root order).outcome >>= fun f =>
      l.facts >>= fun facts =>
      l.tools >>= fun tools =>
      .ok ⟨order, Layout.createPreamble ++ creationText (Creation.steps (l.creation root order).record), Layout.mountText f,
        facts, tools, m⟩ := by
  simp only [compile, Traced.outcome_bind, hl, hm, Traced.outcome_liftM, Layout.order, logDebug, logInfo,
    Traced.outcome_tell, Layout.createScript, Layout.mountScript, Layout.stepsOf, except_ok_bind]
  cases Requirement.sort (Metadata.requirements m) l.refs with
  | error e => rfl
  | ok order =>
    simp only [except_ok_bind, Traced.outcome_pure]
    cases (l.creation root order).outcome with
    | error e => rfl
    | ok u => cases (l.mountFragment root order).outcome <;> rfl

section Sorted

variable {tree : Value} {root : String} {l : Layout} {m : Value.Entries} {order : List DeviceRef}
  (hl : (Layout.read tree).outcome = .ok l) (ht : ∀ n ∈ l.nodes, n.spec.isTyped = true) (hm : l.metadata = .ok m)
  (hs : Requirement.sort (Metadata.requirements m) l.refs = .ok order)
include hl ht

theorem sound_of_mem_inOrder {v : Visit} (hv : v ∈ (l.inOrder order).flatMap (·.visits root [])) : v.Sound := by
  obtain ⟨d, hd, hv⟩ := List.mem_flatMap.1 hv
  exact (Layout.wellFormed_of_read hl).sound_of_mem_visits ht (Layout.mem_of_mem_inOrder hd) root
    (List.forall_mem_nil _) v hv

include hm hs

theorem exists_compiled (hcreatable : ∀ d ∈ l.devices, ∀ v ∈ d.visits root [], v.IsCreatable) :
    ∃ c, (compile tree root).outcome = .ok c := by
  have hwell := Layout.wellFormed_of_read hl
  have hsound (d : Device) (hd : d ∈ l.devices) (v : Visit) (hv : v ∈ d.visits root []) : v.Sound :=
    hwell.sound_of_mem_visits ht hd root (List.forall_mem_nil _) v hv
  have hnaming (d : Device) (hd : d ∈ l.devices) (v : Visit) (hv : v ∈ d.visits root []) : v.naming = .ok () :=
    (hsound d hd v hv).naming_of_isCreatable (hcreatable d hd v hv)
  have hin {v : Visit} (hv : v ∈ (l.inOrder order).flatMap (·.visits root [])) : ∃ d ∈ l.devices, v ∈ d.visits root [] := by
    obtain ⟨d, hd, hv⟩ := List.mem_flatMap.1 hv
    exact ⟨d, Layout.mem_of_mem_inOrder hd, hv⟩
  have hcheck : ∀ v ∈ (l.inOrder order).flatMap (·.visits root []), v.check = .ok () := fun v hv => by
    obtain ⟨d, hd, hv⟩ := hin hv
    exact (hsound d hd v hv).check_of_isCreatable (hcreatable d hd v hv)
  obtain ⟨f, hf⟩ := hwell.exists_mountDevices ht .empty (fun d hd => Layout.mem_of_mem_inOrder hd) fun v hv => by
    obtain ⟨d, hd, hv⟩ := hin hv
    exact hnaming d hd v hv
  obtain ⟨facts, hfacts⟩ := hwell.exists_facts ht root hnaming
  obtain ⟨tools, htools⟩ := Layout.exists_tools ht
  rw [outcome_compile hl hm, hs, except_ok_bind, hwell.outcome_creation ht, except_forM_eq_ok_iff.2 hcheck, except_ok_bind,
    Layout.mountFragment, hf, except_ok_bind, hfacts, except_ok_bind, htools]
  exact ⟨_, rfl⟩

theorem outcome_compile_of_check {before : List Visit} {v : Visit} {after : List Visit}
    (he : (l.inOrder order).flatMap (·.visits root []) = before ++ v :: after) (hbefore : ∀ w ∈ before, w.IsCreatable)
    {fault : Fault} (hfault : v.check = .error fault) : (compile tree root).outcome = .error fault := by
  have hcheck : ∀ w ∈ before, w.check = .ok () := fun w hw =>
    (sound_of_mem_inOrder hl ht (he ▸ List.mem_append_left _ hw)).check_of_isCreatable (hbefore w hw)
  rw [outcome_compile hl hm, hs, except_ok_bind, (Layout.wellFormed_of_read hl).outcome_creation ht, he,
    except_forM_eq_error_iff.2 ⟨_, _, _, rfl, hcheck, hfault⟩]
  rfl

/-- What a creation ends with whose first node that is not creatable is `v`. -/
theorem outcome_compile_of_first {before : List Visit} {v : Visit} {after : List Visit}
    (he : (l.inOrder order).flatMap (·.visits root []) = before ++ v :: after) (hbefore : ∀ w ∈ before, w.IsCreatable)
    (hv : ¬ v.IsCreatable) :
    (v.IsSpelled ∧ ¬ v.IsNamed ∧
      ∃ d, v.ctx.device = .text d ∧ (compile tree root).outcome = .error (.unsupportedNaming d)) ∨
    (¬ v.IsSpelled ∨ v.IsNamed ∧ ¬ v.IsNumbered) ∧ (compile tree root).outcome = .error (.misuse .unwritable) := by
  have hsound := sound_of_mem_inOrder hl ht (he ▸ List.mem_append_right _ List.mem_cons_self)
  obtain ⟨h, -⟩ | ⟨hspelled, hnamed, d, hd, hfault⟩ | ⟨hnumber, hfault⟩ := hsound.check_cases
  · exact absurd h hv
  · exact .inl ⟨hspelled, hnamed, d, hd, outcome_compile_of_check hl ht hm hs he hbefore hfault⟩
  · exact .inr ⟨hnumber, outcome_compile_of_check hl ht hm hs he hbefore hfault⟩

omit ht hm in
theorem creatable_or_exists_first (root : String) : (∀ d ∈ l.devices, ∀ v ∈ d.visits root [], v.IsCreatable) ∨
    ∃ before v after, (l.inOrder order).flatMap (·.visits root []) = before ++ v :: after ∧
      (∀ w ∈ before, w.IsCreatable) ∧ ¬ v.IsCreatable := by
  classical
  have hwell := Layout.wellFormed_of_read hl
  have hperm := hwell.perm_inOrder (Order.perm_of_sort hwell.nodup (Requirement.sort_eq_ok hs))
  cases hfind : ((l.inOrder order).flatMap (·.visits root [])).find? (fun v => ¬ v.IsCreatable) with
  | none =>
    refine .inl (fun d hd v hv => ?_)
    simpa using List.find?_eq_none.1 hfind v (List.mem_flatMap.2 ⟨d, hperm.mem_iff.2 hd, hv⟩)
  | some v =>
    obtain ⟨hv, before, after, he, hbefore⟩ := List.find?_eq_some_iff_append.1 hfind
    exact .inr ⟨before, v, after, he, by simpa using hbefore, by simpa using hv⟩

/-- Devices that are put in order compile, or the creation ends at a node. -/
theorem outcome_compile_of_sorted (root : String) :
    ((∃ c, (compile tree root).outcome = .ok c) ↔ ∀ d ∈ l.devices, ∀ v ∈ d.visits root [], v.IsCreatable) ∧
    ∀ fault, (compile tree root).outcome = .error fault →
      (∃ d, fault = .unsupportedNaming d) ∨ fault = .misuse .unwritable := by
  obtain hcreatable | ⟨before, v, after, he, hbefore, hv⟩ := creatable_or_exists_first hl hs root
  · obtain ⟨c, hc⟩ := exists_compiled hl ht hm hs hcreatable
    exact ⟨iff_of_true ⟨c, hc⟩ hcreatable, fun fault hfault => nomatch hc.symm.trans hfault⟩
  · have hv' : ¬ ∀ d ∈ l.devices, ∀ w ∈ d.visits root [], w.IsCreatable := fun h => by
      obtain ⟨d, hd, hmem⟩ := List.mem_flatMap.1 (he ▸ List.mem_append_right before (List.mem_cons_self (l := after)))
      exact hv (h d (Layout.mem_of_mem_inOrder hd) v hmem)
    obtain ⟨-, -, d, -, hends⟩ | ⟨-, hends⟩ := outcome_compile_of_first hl ht hm hs he hbefore hv
    · refine ⟨iff_of_false (fun ⟨c, hc⟩ => nomatch hends.symm.trans hc) hv', fun fault hfault => .inl ⟨d, ?_⟩⟩
      exact Except.error.inj (hfault.symm.trans hends)
    · refine ⟨iff_of_false (fun ⟨c, hc⟩ => nomatch hends.symm.trans hc) hv', fun fault hfault => .inr ?_⟩
      exact Except.error.inj (hfault.symm.trans hends)

end Sorted

/-- **Exactly when a typed layout compiles, and what it ends with otherwise.**  It compiles where no device feeds itself
through others, every partition that holds something and is met by the walks lies on a device whose partitions have
names, and every number that a creation writes has a text: the level of an array, the index of a partition that holds
something or has a flag.  Otherwise the fault is a loop of devices that feed each other; or, if there is none, that of
the first node in the order of the creation where one of the others fails: the device whose partitions have no names, or
the number.  There is no other fault. -/
theorem compiles_iff {tree : Value} {l : Layout} (hl : (Layout.read tree).outcome = .ok l)
    (ht : ∀ n ∈ l.nodes, n.spec.isTyped = true) (root : String) :
    let IsCyclic := ∃ d, Relation.TransGen l.Feeds d d
    ((∃ c, (compile tree root).outcome = .ok c) ↔
      ¬ IsCyclic ∧ ∀ d ∈ l.devices, ∀ v ∈ d.visits root [], v.IsNamed ∧ v.IsSpelled ∧ v.IsNumbered) ∧
    (IsCyclic → ∃ loop, (compile tree root).outcome = .error (.cycle loop) ∧ 2 ≤ loop.length ∧
      loop.head? = loop.getLast? ∧ loop.dropLast.Nodup ∧ loop.IsChain l.Feeds) ∧
    (¬ IsCyclic → ∃ m order, l.metadata = .ok m ∧ Requirement.sort (Metadata.requirements m) l.refs = .ok order ∧
      order.Perm l.refs ∧ ∀ before v after, (l.inOrder order).flatMap (·.visits root []) = before ++ v :: after →
        (∀ w ∈ before, w.IsNamed ∧ w.IsSpelled ∧ w.IsNumbered) →
        (v.IsSpelled → ¬ v.IsNamed →
          ∃ d, v.ctx.device = .text d ∧ (compile tree root).outcome = .error (.unsupportedNaming d)) ∧
        (¬ v.IsSpelled ∨ v.IsNamed ∧ ¬ v.IsNumbered → (compile tree root).outcome = .error (.misuse .unwritable))) ∧
    ∀ fault, (compile tree root).outcome = .error fault →
      (∃ loop, fault = .cycle loop) ∨ (∃ d, fault = .unsupportedNaming d) ∨ fault = .misuse .unwritable := by
  intro IsCyclic
  have hwell := Layout.wellFormed_of_read hl
  obtain ⟨m, hm⟩ := Layout.exists_metadata ht
  have hcyclic : IsCyclic ↔
      ∃ c, Order.cycle? l.refs (Order.between l.refs ((Metadata.requirements m).flatMap Requirement.edges)) = some c := by
    rw [Order.exists_cycle?_iff, Layout.feeds_eq hm]
  cases hs : Requirement.sort (Metadata.requirements m) l.refs with
  | error fault =>
    obtain ⟨loop, rfl, hloop⟩ := Requirement.sort_eq_error_iff.1 hs
    have hc : (compile tree root).outcome = .error (.cycle loop) := by
      rw [outcome_compile hl hm, hs]
      rfl
    have hisLoop := Order.isLoop_of_cycle? hloop
    refine ⟨iff_of_false ?_ (fun h => h.1 (hcyclic.2 ⟨loop, hloop⟩)), fun _ => ⟨loop, hc, hisLoop.length, hisLoop.closed,
      hisLoop.nodup, Layout.feeds_eq hm ▸ hisLoop.chain⟩, fun h => absurd (hcyclic.2 ⟨loop, hloop⟩) h,
      fun fault hfault => ?_⟩
    · rintro ⟨c, hcompiled⟩
      cases hc.symm.trans hcompiled
    · cases hc.symm.trans hfault
      exact .inl ⟨loop, rfl⟩
  | ok order =>
    have hnone : ¬ IsCyclic := fun h => by
      obtain ⟨loop, hloop⟩ := hcyclic.1 h
      cases hs.symm.trans (Requirement.sort_eq_error_iff.2 ⟨loop, rfl, hloop⟩)
    obtain ⟨hcompiles, hfaults⟩ := outcome_compile_of_sorted hl ht hm hs root
    simp only [← Visit.isCreatable_iff]
    refine ⟨hcompiles.trans (and_iff_right hnone).symm, fun h => absurd h hnone, fun _ => ⟨m, order, hm, hs,
      Order.perm_of_sort hwell.nodup (Requirement.sort_eq_ok hs), fun before v after he hbefore =>
        ⟨fun hspelled hnamed => ?_, fun hnumber => ?_⟩⟩, fun fault hfault => .inr (hfaults fault hfault)⟩
    · obtain ⟨-, -, hfault⟩ | ⟨hnumber, -⟩ :=
        outcome_compile_of_first hl ht hm hs he hbefore fun h => hnamed h.named
      · exact hfault
      · exact absurd hnumber (by simp [hspelled, hnamed])
    · obtain ⟨hspelled, hnamed, -⟩ | ⟨-, hfault⟩ := outcome_compile_of_first hl ht hm hs he hbefore
        fun h => hnumber.elim (absurd h.spelled) fun hn => hn.2 h.numbered
      · exact absurd hnumber (by simp [hspelled, hnamed])
      · exact hfault

/-- A partitioned disk, and a partition table in a container: the first has names for its partitions, the second has none. -/
theorem compiles_iff_of_table_in_container :
    let table (content : Value) : Value :=
      node "table" [entry "partitions" (.list [node "partition" [entry "content" content]])]
    let disk (device : String) (content : Value) : Value :=
      node "disk" [entry "device" (.text device), entry "content" content]
    let tree : Value := .map [entry "disk" (.map [
      entry "a" (disk "/dev/sda" (table (node "swap" []))),
      entry "b" (disk "/dev/sdb" (node "luks" [entry "name" (.text "crypt"), entry "content" (table (node "swap" []))]))])]
    ∃ l, (Layout.read tree).outcome = .ok l ∧ (∀ n ∈ l.nodes, n.spec.isTyped = true) ∧
      (compile tree "/mnt").outcome = .error (.unsupportedNaming "/dev/mapper/crypt") ∧
      (¬ ∃ d, Relation.TransGen l.Feeds d d) ∧
      ¬ ∀ d ∈ l.devices, ∀ v ∈ d.visits "/mnt" [], v.IsNamed ∧ v.IsSpelled ∧ v.IsNumbered := by
  intro table disk tree
  have hread : (Layout.read tree).outcome.toOption.map (fun l => l.nodes.all (·.spec.isTyped)) = some true := by
    decide +kernel
  obtain ⟨l, hl, htyped⟩ := Option.map_eq_some_iff.1 hread
  replace hl := eq_ok_of_toOption hl
  have hfault : (compile tree "/mnt").outcome = .error (.unsupportedNaming "/dev/mapper/crypt") := by
    have hchecked : (match (compile tree "/mnt").outcome with
      | .error (.unsupportedNaming d) => some d
      | _ => none) = some "/dev/mapper/crypt" := by decide +kernel
    split at hchecked
    · rename_i d hd
      rw [hd, Option.some.inj hchecked]
    · cases hchecked
  have ht := List.all_eq_true.1 htyped
  obtain ⟨hcompiles, hcyclic, -, -⟩ := compiles_iff hl ht "/mnt"
  have hacyclic : ¬ ∃ d, Relation.TransGen l.Feeds d d := fun h => by
    obtain ⟨loop, hloop, -⟩ := hcyclic h
    cases hloop.symm.trans hfault
  refine ⟨l, hl, ht, hfault, hacyclic, fun hcreatable => ?_⟩
  obtain ⟨c, hc⟩ := hcompiles.2 ⟨hacyclic, hcreatable⟩
  cases hc.symm.trans hfault

/-- A flag of a partition whose number has too many digits: no device feeds another and every partition has a name, but the
layout does not compile. -/
theorem not_compiled_of_overlong_number :
    let flagged : Value :=
      node "partition" [entry "index" (.int (Double.pow10 Text.maxDigits)), entry "bootable" (.bool true)]
    let tree : Value := .map [entry "disk" (.map [entry "a" (node "disk" [entry "device" (.text "/dev/sda"),
      entry "content" (node "table" [entry "partitions" (.list [flagged])])])])]
    ∃ l, (Layout.read tree).outcome = .ok l ∧ (∀ n ∈ l.nodes, n.spec.isTyped = true) ∧
      (¬ ∃ d, Relation.TransGen l.Feeds d d) ∧ (∀ d ∈ l.devices, ∀ v ∈ d.visits "/mnt" [], v.IsNamed) ∧
      (compile tree "/mnt").outcome = .error (.misuse .unwritable) := by
  intro flagged tree
  have hread : (Layout.read tree).outcome.toOption.map (fun l => l.nodes.all fun n =>
      n.spec.isTyped && n.spec.membership?.isNone && (n.spec.kind != .partition || n.children.isEmpty)) = some true := by
    decide +kernel
  have hfault : (match (compile tree "/mnt").outcome with
      | .error (.misuse .unwritable) => true
      | _ => false) = true := by decide +kernel
  obtain ⟨l, hl, hnodes⟩ := Option.map_eq_some_iff.1 hread
  have hnode {n : Node} (hn : n ∈ l.nodes) :
      (n.spec.isTyped = true ∧ n.spec.membership? = none) ∧ (n.spec.kind = .partition → n.children = []) := by
    simpa [imp_iff_not_or] using List.all_eq_true.1 hnodes n hn
  refine ⟨l, eq_ok_of_toOption hl, fun n hn => (hnode hn).1.1, ?_, fun d hd v hv hk hne => ?_, ?_⟩
  · rintro ⟨d, hd⟩
    obtain ⟨e, ⟨-, p, hp, -, n, hn, group, -, hmember⟩, -⟩ := Relation.TransGen.head'_iff.1 hd
    rw [(hnode (Layout.mem_nodes_iff.2 ⟨p, hp, hn⟩)).1.2] at hmember
    cases hmember
  · exact absurd ((hnode (Layout.mem_nodes_iff.2 ⟨d, hd, Node.node_mem_subnodes d.node _ v hv⟩)).2 hk) hne
  · split at hfault
    · assumption
    · cases hfault

end Provision
