import Provision.Proofs.Messages
import Provision.Proofs.Mount.Activation
/-!
# Mounts under one path

Fragments that are added report every path that is in both (`Fragment.overwrites_mem_record_add_iff`), but a node writes its
own mount over those of the nodes below without a word.  So of nodes that enter one path, two are reported exactly where
neither holds the other (`overwrites_iff_apart`); where one holds the other, a filesystem is lost in silence.
-/
namespace Provision

open Value (entry node)

namespace ByPath

variable {μ : Type}

theorem contains_iff {ms : ByPath μ} {path : String} : ms.contains path = true ↔ path ∈ ms.map Prod.fst := by
  simp [contains]

theorem mem_keys_put {ms : ByPath μ} {path p : String} {m : μ} :
    p ∈ (ms.put path m).map Prod.fst ↔ p ∈ ms.map Prod.fst ∨ p = path := by
  rw [keys_put]
  split
  · rename_i h
    exact ⟨.inl, fun hp => hp.elim id (fun e => e ▸ h)⟩
  · rw [List.mem_append, List.mem_singleton]

theorem mem_keys_foldl_put {path : String} : ∀ {fs : List (String × μ)} {ms : ByPath μ},
    path ∈ (fs.foldl (fun acc e => acc.put e.1 e.2) ms).map Prod.fst ↔ path ∈ ms.map Prod.fst ∨ path ∈ fs.map Prod.fst
  | [], _ => by simp
  | e :: fs, ms => by rw [List.foldl_cons, mem_keys_foldl_put, mem_keys_put, List.map_cons, List.mem_cons, or_assoc]

end ByPath

namespace Fragment

variable {σ μ : Type}

theorem record_addMounts : ∀ {ms : ByPath μ}, (ms.map Prod.fst).Nodup → ∀ acc : ByPath μ,
    (addMounts acc ms).record = (ms.filter (fun m => acc.contains m.1)).map (fun m => .overwrites m.1)
  | [], _, _ => rfl
  | (path, m) :: rest, h, acc => by
    rw [List.map_cons, List.nodup_cons] at h
    -- what was put under the first path is not asked for again
    have hsame : rest.filter (fun e => (acc.put path m).contains e.1) = rest.filter (fun e => acc.contains e.1) := by
      refine List.filter_congr (fun e he => Bool.eq_iff_iff.2 ?_)
      have hne : e.1 ≠ path := fun hpath => h.1 (List.mem_map.2 ⟨e, he, hpath⟩)
      rw [ByPath.contains_iff, ByPath.contains_iff, ByPath.mem_keys_put, or_iff_left hne]
    rw [addMounts, List.filter_cons]
    split
    · rw [Traced.record_bind, List.map_cons, ← hsame, ← record_addMounts h.2]
      rfl
    · exact (record_addMounts h.2 _).trans (by rw [hsame])

/-- **Fragments put together** report the paths that both have. -/
theorem overwrites_mem_record_add_iff {acc f : Fragment σ μ} (h : (f.mounts.map Prod.fst).Nodup) {path : String} :
    .overwrites path ∈ (acc.add f).record ↔ path ∈ acc.mounts.map Prod.fst ∧ path ∈ f.mounts.map Prod.fst := by
  have hrecord : (acc.add f).record = (addMounts acc.mounts f.mounts).record := by
    rw [add, Traced.bind_ok (outcome_addMounts f.mounts acc.mounts)]
    exact List.append_nil _
  rw [hrecord, record_addMounts h]
  simp only [List.mem_map, List.mem_filter, ByPath.contains_iff, Message.overwrites_inj]
  constructor
  · rintro ⟨e, ⟨he, hacc⟩, rfl⟩
    exact ⟨hacc, e, he, rfl⟩
  · rintro ⟨hacc, e, he, rfl⟩
    exact ⟨e, ⟨he, hacc⟩, rfl⟩

end Fragment

def Visit.Enters (v : Visit) (path : String) : Prop := ∃ m, v.entered? = some (path, m)

theorem Visit.enters_iff {v : Visit} {path : String} : v.Enters path ↔ path ∈ v.entered?.toList.map Prod.fst := by
  unfold Enters
  cases v.entered? with
  | none => simp
  | some e =>
    rw [Option.toList_some, List.map_singleton, List.mem_singleton]
    exact ⟨fun ⟨m, h⟩ => Option.some.inj h ▸ rfl, fun h => ⟨e.2, h ▸ rfl⟩⟩

def EnteredIn {σ : Type} (ss : List (σ × Visit)) (path : String) : Prop := ∃ s ∈ ss, s.2.Enters path

/-- Whether two of them do whose places are apart. -/
def CollideIn {σ : Type} (apart : σ → σ → Prop) (ss : List (σ × Visit)) (path : String) : Prop :=
  ∃ s ∈ ss, ∃ t ∈ ss, apart s.1 t.1 ∧ s.2.Enters path ∧ t.2.Enters path

section Places

variable {σ : Type} {apart : σ → σ → Prop} {ss ts : List (σ × Visit)} {path : String}

theorem enteredIn_iff : EnteredIn ss path ↔ path ∈ ((ss.map Prod.snd).filterMap Visit.entered?).map Prod.fst := by
  rw [List.filterMap_map, List.filterMap_eq_flatMap_toList, List.map_flatMap, List.mem_flatMap]
  exact exists_congr (fun s => and_congr_right (fun _ => Visit.enters_iff))

theorem enteredIn_append : EnteredIn (ss ++ ts) path ↔ EnteredIn ss path ∨ EnteredIn ts path := by
  simp only [EnteredIn, List.mem_append, or_and_right, exists_or]

theorem enteredIn_map {τ : Type} (place : σ → τ) :
    EnteredIn (ss.map (fun s => (place s.1, s.2))) path ↔ EnteredIn ss path := by
  simp only [EnteredIn, List.mem_map, exists_exists_and_eq_and]

theorem collideIn_map {τ : Type} (place : σ → τ) {apart' : τ → τ → Prop}
    (h : ∀ a b, apart' (place a) (place b) ↔ apart a b) :
    CollideIn apart' (ss.map (fun s => (place s.1, s.2))) path ↔ CollideIn apart ss path := by
  simp only [CollideIn, List.mem_map, exists_exists_and_eq_and, h]

theorem collideIn_append (hcross : ∀ s ∈ ss, ∀ t ∈ ts, apart s.1 t.1) :
    CollideIn apart (ss ++ ts) path ↔
      CollideIn apart ss path ∨ (EnteredIn ss path ∧ EnteredIn ts path) ∨ CollideIn apart ts path := by
  constructor
  · rintro ⟨s, hs, t, ht, hapart, hsp, htp⟩
    rcases List.mem_append.1 hs with hs | hs <;> rcases List.mem_append.1 ht with ht | ht
    · exact .inl ⟨s, hs, t, ht, hapart, hsp, htp⟩
    · exact .inr (.inl ⟨⟨s, hs, hsp⟩, t, ht, htp⟩)
    · exact .inr (.inl ⟨⟨t, ht, htp⟩, s, hs, hsp⟩)
    · exact .inr (.inr ⟨s, hs, t, ht, hapart, hsp, htp⟩)
  · rintro (⟨s, hs, t, ht, h⟩ | ⟨⟨s, hs, hsp⟩, t, ht, htp⟩ | ⟨s, hs, t, ht, h⟩)
    · exact ⟨s, List.mem_append_left _ hs, t, List.mem_append_left _ ht, h⟩
    · exact ⟨s, List.mem_append_left _ hs, t, List.mem_append_right _ ht, hcross s hs t ht, hsp, htp⟩
    · exact ⟨s, List.mem_append_right _ hs, t, List.mem_append_right _ ht, h⟩

/-- **One fragment added, then the rest**: what is reported, given what each of the two reports. -/
theorem overwrites_mem_record_step_iff {x : Logged MountFragment} {rest : MountFragment → Logged MountFragment}
    {acc f : MountFragment} (hcross : ∀ s ∈ ss, ∀ t ∈ ts, apart s.1 t.1)
    (hf : x.outcome = .ok f) (hnodup : (f.mounts.map Prod.fst).Nodup)
    (hkeys : path ∈ f.mounts.map Prod.fst ↔ EnteredIn ss path) (hx : .overwrites path ∈ x.record ↔ CollideIn apart ss path)
    (hrest : ∀ acc', (acc.add f).outcome = .ok acc' → (.overwrites path ∈ (rest acc').record ↔
      (path ∈ acc'.mounts.map Prod.fst ∧ EnteredIn ts path) ∨ CollideIn apart ts path)) :
    .overwrites path ∈ (do
      let f ← x
      let acc ← acc.add f
      rest acc).record ↔
      (path ∈ acc.mounts.map Prod.fst ∧ EnteredIn (ss ++ ts) path) ∨ CollideIn apart (ss ++ ts) path := by
  simp only [Traced.mem_record_bind_iff, hf, Except.ok.injEq, exists_eq_left', Fragment.overwrites_mem_record_add_iff hnodup,
    Fragment.outcome_add, hx, hrest _ (Fragment.outcome_add acc f), ByPath.mem_keys_foldl_put, hkeys, enteredIn_append,
    collideIn_append hcross]
  rw [and_or_left, or_and_right]
  exact iff_of_eq (by ac_rfl)

end Places

namespace Node

def Fork (p q : List Nat) : Prop := ¬ p <+: q ∧ ¬ q <+: p

theorem mem_record_mountBelow_iff {n : Node} {ctx : Context} {below : MountFragment}
    (h : (mountBelow n ctx).outcome = .ok below) {m : Message} :
    m ∈ (mountBelow n ctx).record ↔
      ∃ inner, n.spec.handed? ctx = some inner ∧ m ∈ (mountAll n.children inner .empty).record := by
  simp only [Spec.handed?_eq_some_iff]
  unfold mountBelow at h ⊢
  cases hc : n.children with
  | nil => simp [mountAll]
  | cons c cs =>
    cases hp : n.spec.places with
    | false => simp
    | true =>
      simp only [hp, hc, List.isEmpty_cons, Bool.not_false, Bool.and_true, if_true, Traced.outcome_bind_eq_ok_iff] at h
      obtain ⟨inner, henter, -⟩ := h
      rw [Traced.outcome_liftM] at henter
      simp [Traced.mem_record_bind_iff, henter, (Spec.enter_eq_ok_iff.1 henter).1]

theorem mem_record_mount_iff {n : Node} {ctx : Context} {m : Message} :
    m ∈ (n.mount ctx).record ↔ m ∈ (mountBelow n ctx).record := by
  rw [mount_eq]
  simp [Traced.mem_record_bind_iff]

theorem mem_keys_mount_iff {n : Node} {ctx : Context} {f : MountFragment} (h : (n.mount ctx).outcome = .ok f)
    {path : String} :
    path ∈ f.mounts.map Prod.fst ↔ EnteredIn (n.sited ctx) path := by
  rw [(mount_ok n ctx f h).2.1.mem_keys_iff, enteredIn_iff, map_snd_sited]
  exact (((visitsUp_perm n ctx).filterMap _).map _).mem_iff

mutual

/-- **What mounting a tree reports**: the paths that two nodes enter of which neither holds the other. -/
theorem overwrites_mem_record_mount_iff : ∀ (n : Node) (ctx : Context) (f : MountFragment), (n.mount ctx).outcome = .ok f →
    ∀ path, .overwrites path ∈ (n.mount ctx).record ↔ CollideIn Fork (n.sited ctx) path
  | ⟨key, spec, hooks, children⟩, ctx, f, h, path => by
    rw [mount_eq] at h
    obtain ⟨below, hbelow, -⟩ := Traced.outcome_bind_eq_ok_iff.1 h
    rw [mem_record_mount_iff, mem_record_mountBelow_iff hbelow, sited_eq]
    have hb := mountBelow_ok hbelow
    -- every way begins at the node itself, so the node forks from nothing
    have htop (ss : List (List Nat × Visit)) (v : Visit) : CollideIn Fork (([], v) :: ss) path ↔ CollideIn Fork ss path := by
      refine ⟨fun ⟨s, hs, t, ht, hfork, hp⟩ => ?_, fun ⟨s, hs, t, ht, h⟩ =>
        ⟨s, List.mem_cons_of_mem _ hs, t, List.mem_cons_of_mem _ ht, h⟩⟩
      rcases List.mem_cons.1 hs with rfl | hs
      · exact absurd List.nil_prefix hfork.1
      rcases List.mem_cons.1 ht with rfl | ht
      · exact absurd List.nil_prefix hfork.2
      · exact ⟨s, hs, t, ht, hfork, hp⟩
    rw [htop]
    dsimp only at hb ⊢
    cases hhanded : spec.handed? ctx with
    | none => simp [CollideIn]
    | some inner =>
      rw [hhanded] at hb
      simp only [Option.some.injEq, exists_eq_left',
        overwrites_mem_record_mountAll_iff 0 children inner .empty below hb path]
      exact or_iff_right (fun hnone => by cases hnone.1)

theorem overwrites_mem_record_mountAll_iff : ∀ (i : Nat) (ns : List Node) (ctx : Context) (acc f : MountFragment),
    (mountAll ns ctx acc).outcome = .ok f → ∀ path, .overwrites path ∈ (mountAll ns ctx acc).record ↔
      (path ∈ acc.mounts.map Prod.fst ∧ EnteredIn (sitedAll i ns ctx) path) ∨ CollideIn Fork (sitedAll i ns ctx) path
  | i, [], ctx, acc, f, _, path => by simp [mountAll, sitedAll, EnteredIn, CollideIn]
  | i, n :: ns, ctx, acc, f, h, path => by
    rw [mountAll] at h
    obtain ⟨g, hg, h⟩ := Traced.outcome_bind_eq_ok_iff.1 h
    obtain ⟨acc', hadd, h⟩ := Traced.outcome_bind_eq_ok_iff.1 h
    rw [mountAll, sitedAll]
    refine overwrites_mem_record_step_iff (fun s hs t ht => ?_) hg (mount_ok n ctx g hg).2.1.nodup ?_ ?_
      (fun acc'' hadd' => ?_)
    · obtain ⟨s', -, rfl⟩ := List.mem_map.1 hs
      obtain ⟨k, -, way, -, hway, -⟩ := exists_of_mem_sitedAll ht
      rw [Fork, hway, List.cons_prefix_cons, List.cons_prefix_cons]
      omega
    · rw [mem_keys_mount_iff hg, enteredIn_map (i :: ·)]
    · rw [overwrites_mem_record_mount_iff n ctx g hg path, collideIn_map (i :: ·) (fun p q => ?_)]
      simp only [Fork, List.cons_prefix_cons, true_and]
    · cases hadd.symm.trans hadd'
      exact overwrites_mem_record_mountAll_iff (i + 1) ns ctx acc' f h path

end

end Node

namespace Layout

theorem overwrites_mem_record_mountDevices_iff {root : String} {path : String} :
    ∀ {ds : List Device} {acc f : MountFragment},
    (ds.map Device.ref).Nodup → (mountDevices root ds acc).outcome = .ok f →
    (.overwrites path ∈ (mountDevices root ds acc).record ↔
      (path ∈ acc.mounts.map Prod.fst ∧ EnteredIn (ds.flatMap (·.sited root)) path) ∨
        CollideIn Site.Apart (ds.flatMap (·.sited root)) path)
  | [], acc, f, _, _ => by simp [mountDevices, EnteredIn, CollideIn]
  | d :: ds, acc, f, hnodup, h => by
    rw [List.map_cons, List.nodup_cons] at hnodup
    rw [mountDevices] at h
    obtain ⟨g, hg, h⟩ := Traced.outcome_bind_eq_ok_iff.1 h
    obtain ⟨acc', hadd, h⟩ := Traced.outcome_bind_eq_ok_iff.1 h
    rw [mountDevices, List.flatMap_cons]
    refine overwrites_mem_record_step_iff (fun s hs t ht => ?_) hg (Node.mount_ok d.node _ g hg).2.1.nodup ?_ ?_
      (fun acc'' hadd' => ?_)
    · obtain ⟨e, he, ht⟩ := List.mem_flatMap.1 ht
      refine Site.apart_of_device_ne (fun hdevice => hnodup.1 ?_)
      rw [Device.device_of_mem_sited hs, Device.device_of_mem_sited ht] at hdevice
      exact hdevice ▸ List.mem_map_of_mem he
    · rw [Node.mem_keys_mount_iff hg, Device.sited, enteredIn_map (Site.mk d.ref)]
    · rw [Node.overwrites_mem_record_mount_iff d.node _ g hg path, Device.sited,
        collideIn_map (Site.mk d.ref) (fun p q => Site.apart_iff)]
      rfl
    · cases hadd.symm.trans hadd'
      exact overwrites_mem_record_mountDevices_iff hnodup.2 h

/-- **What mounting a layout reports**: the paths that two nodes enter of which neither holds the other. -/
theorem WellFormed.overwrites_mem_record_mountFragment_iff {l : Layout} (hl : l.WellFormed) {root path : String}
    {order : List DeviceRef} (ho : order.Perm l.refs) {f : MountFragment}
    (h : (l.mountFragment root order).outcome = .ok f) :
    .overwrites path ∈ (l.mountFragment root order).record ↔ CollideIn Site.Apart (l.sited root order) path := by
  have hnodup : ((l.inOrder order).map Device.ref).Nodup := by
    rw [map_ref_inOrder ho.subset]
    exact ho.nodup_iff.2 hl.nodup
  exact (overwrites_mem_record_mountDevices_iff hnodup h).trans (or_iff_right (fun hnone => by cases hnone.1))

end Layout

theorem Node.Fits.of_mem_subnodes {n m : Node} (h : n.Fits) (hm : m ∈ n.subnodes) : m.Fits := by
  induction h with
  | @mk n hkinds hbelow ih =>
    obtain rfl | ⟨c, hc, hm⟩ := mem_subnodes_iff.1 hm
    · exact .mk hkinds hbelow
    · exact ih c hc hm

/-- Only filesystems of two kinds are mounted themselves and have nodes below that are placed. -/
theorem Spec.kind_of_mounting_of_takes {spec : Spec} {ctx : Context} {e : String × Mounting} {k : Kind}
    (h : spec.mounting ctx = .ok (some e)) (hp : spec.places = true) (hk : spec.kind.holding.takes k = true) :
    spec.kind = .btrfs ∨ spec.kind = .pool := by
  cases spec
  case btrfs => exact .inl rfl
  case pool => exact .inr rfl
  case filesystem | subvolume | swap | nodev => cases hk
  case dataset type _ _ _ _ =>
    cases type with
    | filesystem => cases hp
    | volume => cases h
  all_goals cases h

namespace Layout

/-- A node that enters a path and holds another one that is met is a btrfs filesystem or a pool. -/
theorem WellFormed.kind_of_encloses {l : Layout} (hl : l.WellFormed) {root path : String} {order : List DeviceRef}
    {s t : Site}
    {v w : Visit} (hs : (s, v) ∈ l.sited root order) (ht : (t, w) ∈ l.sited root order) (hst : s.Encloses t)
    (hv : v.Enters path) : v.node.spec.kind = .btrfs ∨ v.node.spec.kind = .pool := by
  obtain ⟨d, hd, hs⟩ := List.mem_flatMap.1 hs
  obtain ⟨e, he, ht⟩ := List.mem_flatMap.1 ht
  obtain rfl : d = e := List.inj_on_of_nodup_map hl.nodup (mem_of_mem_inOrder hd) (mem_of_mem_inOrder he)
    ((Device.device_of_mem_sited hs).symm.trans (hst.1.trans (Device.device_of_mem_sited ht)))
  obtain ⟨⟨p, x⟩, hsited, he⟩ := List.mem_map.1 hs
  cases he
  obtain ⟨⟨q, _⟩, hsited', he⟩ := List.mem_map.1 ht
  cases he
  obtain ⟨-, ⟨below, rfl⟩, hne⟩ := hst
  obtain ⟨i, below, rfl⟩ := List.exists_cons_of_ne_nil (l := below) (fun he => hne (by simp [he]))
  obtain ⟨hplaces, hchildren⟩ := Node.places_of_mem_sited hsited hsited'
  obtain ⟨c, hc⟩ := List.exists_mem_of_ne_nil _ hchildren
  have hmet : x ∈ d.node.visits (d.context root []) := by
    rw [← Node.map_snd_sited]
    exact List.mem_map_of_mem hsited
  obtain ⟨kinds, -⟩ := (hl.fits d (mem_of_mem_inOrder hd)).of_mem_subnodes (Node.node_mem_subnodes d.node _ x hmet)
  obtain ⟨m, hm⟩ := hv
  exact Spec.kind_of_mounting_of_takes (Visit.entered?_eq_some_iff.1 hm) hplaces (kinds c hc)

end Layout

/-- **Which paths that are entered twice are reported.**  A compilation reports a path exactly where two nodes of the layout
enter it of which neither holds the other.  A node that enters the path of one that it holds takes its place in silence; such
a node is a btrfs filesystem or a pool. -/
theorem overwrites_iff_apart {tree : Value} {root : String} {c : Compiled} (h : (compile tree root).outcome = .ok c) :
    ∃ l : Layout, (Layout.read tree).outcome = .ok l ∧ ((l.sited root c.order).map (·.2.node)).Perm l.placed ∧
      (∀ s v, (s, v) ∈ l.sited root c.order → l.at? s = some v.node) ∧
      ((l.sited root c.order).map Prod.fst).Nodup ∧
      ∀ path,
        (.overwrites path ∈ (compile tree root).record ↔ ∃ s t v w, (s, v) ∈ l.sited root c.order ∧
          (t, w) ∈ l.sited root c.order ∧ s.Apart t ∧ v.Enters path ∧ w.Enters path) ∧
        ∀ s t v w, (s, v) ∈ l.sited root c.order → (t, w) ∈ l.sited root c.order → s.Encloses t → v.Enters path →
          v.node.spec.kind = .btrfs ∨ v.node.spec.kind = .pool := by
  obtain ⟨l, hl, -, hs, -, -⟩ := compile_ok h
  obtain ⟨f, hf, -, -⟩ := compile_mounts h hl
  obtain ⟨l', hl', -, hwalked⟩ := Layout.walked_of_compile h
  cases hl.symm.trans hl'
  have hwell := Layout.wellFormed_of_read hl
  have hperm := Order.perm_of_sort hwell.nodup (Requirement.sort_eq_ok hs)
  refine ⟨l, hl, hwalked.perm_node_sited, fun s v hv => hwell.at?_of_mem_sited hv, ?_, fun path => ⟨?_, ?_⟩⟩
  · rw [List.Nodup, List.pairwise_map]
    exact (hwell.pairwise_sited root hperm).imp And.left
  · rw [overwrites_mem_record_compile_iff h hl, hwell.overwrites_mem_record_mountFragment_iff hperm hf]
    constructor
    · rintro ⟨⟨s, v⟩, hv, ⟨t, w⟩, hw, hapart⟩
      exact ⟨s, t, v, w, hv, hw, hapart⟩
    · rintro ⟨s, t, v, w, hv, hw, hapart⟩
      exact ⟨(s, v), hv, (t, w), hw, hapart⟩
  · exact fun s t v w hv hw hst henters => hwell.kind_of_encloses hv hw hst henters

/-- A btrfs filesystem and a subvolume of it under one path: the filesystem takes the place of the subvolume, and the
compilation says nothing above its details. -/
theorem overwritten_in_silence_of_subvolume :
    let tree : Value := .map [entry "disk" (.map [entry "a" (node "disk" [entry "device" (.text "/dev/sda"),
      entry "content" (node "btrfs" [entry "mountpoint" (.text "/data"),
        entry "subvolumes" (.map [entry "home" (node "btrfs_subvol" [entry "mountpoint" (.text "/data")])])])])])]
    ∃ c l, (compile tree "/mnt").outcome = .ok c ∧ (Layout.read tree).outcome = .ok l ∧
      (∃ s t v w, s ≠ t ∧ (s, v) ∈ l.sited "/mnt" c.order ∧ (t, w) ∈ l.sited "/mnt" c.order ∧ v.Enters "/data" ∧
        w.Enters "/data") ∧
      .overwrites "/data" ∉ (compile tree "/mnt").record ∧ Message.atLeast .warning (compile tree "/mnt").record = [] := by
  intro tree
  have hchecked : (compile tree "/mnt").outcome.toOption.bind (fun c => (Layout.read tree).outcome.toOption.map (fun l =>
      (l.sited "/mnt" c.order).map (fun s => (s.1, s.2.entered?.map Prod.fst)))) =
      some [(⟨⟨"disk", "a"⟩, []⟩, none), (⟨⟨"disk", "a"⟩, [0]⟩, some "/data"), (⟨⟨"disk", "a"⟩, [0, 0]⟩, some "/data")] := by
    decide +kernel
  have hquiet : Message.atLeast .warning (compile tree "/mnt").record = [] := by decide +kernel
  obtain ⟨c, hc, hchecked⟩ := Option.bind_eq_some_iff.1 hchecked
  obtain ⟨l, hl, hsites⟩ := Option.map_eq_some_iff.1 hchecked
  have hentered (path : List Nat) (h : (⟨⟨"disk", "a"⟩, path⟩, some "/data") ∈
      [((⟨⟨"disk", "a"⟩, []⟩, none) : Site × Option String), (⟨⟨"disk", "a"⟩, [0]⟩, some "/data"),
        (⟨⟨"disk", "a"⟩, [0, 0]⟩, some "/data")]) :
      ∃ v, (⟨⟨"disk", "a"⟩, path⟩, v) ∈ l.sited "/mnt" c.order ∧ v.Enters "/data" := by
    rw [← hsites] at h
    obtain ⟨⟨s, v⟩, hv, he⟩ := List.mem_map.1 h
    obtain ⟨rfl, he⟩ := Prod.mk.inj he
    obtain ⟨⟨p, m⟩, hm, rfl⟩ := Option.map_eq_some_iff.1 he
    exact ⟨v, hv, m, hm⟩
  obtain ⟨v, hv, hve⟩ := hentered [0] (by decide)
  obtain ⟨w, hw, hwe⟩ := hentered [0, 0] (by decide)
  refine ⟨c, l, eq_ok_of_toOption hc, eq_ok_of_toOption hl, ⟨_, _, v, w, by decide, hv, hw, hve, hwe⟩, fun hmem => ?_,
    hquiet⟩
  exact List.filter_eq_nil_iff.1 hquiet _ hmem rfl

/-- Two filesystems on different disks under one path are reported, and neither holds the other. -/
theorem overwrites_iff_apart_of_two_disks :
    let disk (device : String) : Value := node "disk" [entry "device" (.text device),
      entry "content" (node "filesystem" [entry "format" (.text "ext4"), entry "mountpoint" (.text "/data")])]
    let tree : Value := .map [entry "disk" (.map [entry "a" (disk "/dev/sda"), entry "b" (disk "/dev/sdb")])]
    ∃ c l, (compile tree "/mnt").outcome = .ok c ∧ (Layout.read tree).outcome = .ok l ∧
      .overwrites "/data" ∈ (compile tree "/mnt").record ∧ ∃ s t v w, (s, v) ∈ l.sited "/mnt" c.order ∧
        (t, w) ∈ l.sited "/mnt" c.order ∧ s.Apart t ∧ v.Enters "/data" ∧ w.Enters "/data" := by
  intro disk tree
  have hcompiles : (compile tree "/mnt").outcome.toOption.isSome = true := by decide +kernel
  have hreported : .overwrites "/data" ∈ (compile tree "/mnt").record := by decide +kernel
  obtain ⟨c, hc⟩ := Option.isSome_iff_exists.1 hcompiles
  obtain ⟨l, hl, -, -, -, hpaths⟩ := overwrites_iff_apart (eq_ok_of_toOption hc)
  exact ⟨c, l, eq_ok_of_toOption hc, hl, hreported, (hpaths "/data").1.1 hreported⟩

end Provision
