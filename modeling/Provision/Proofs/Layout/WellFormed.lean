import Mathlib.Data.List.Nodup
import Provision.Compile
import Provision.Proofs.Layout.Fits
/-!
# Layouts that were read

A layout that was read is well formed: its trees fit, every device is of the kind of its group, and no two devices share
a group and a name, since a mapping lists each key once (`Layout.wellFormed_of_read`).  A device is then found by its
reference (`Layout.find?_ref`), and the devices of an order of all references are those of the layout
(`Layout.perm_inOrder`).
-/
namespace Provision

/-- **What reading promises of a layout.** -/
structure Layout.WellFormed (l : Layout) : Prop where
  fits : ∀ d ∈ l.devices, d.node.Fits
  kind : ∀ d ∈ l.devices, d.node.spec.kind = d.group.kind
  nodup : l.refs.Nodup

theorem Group.name_injective {g h : Group} (e : g.name = h.name) : g = h := by
  have := Kind.name_injective e
  cases g <;> cases h <;> simp_all [Group.kind]

namespace Node

theorem keys_put (ns : List Node) (n : Node) :
    (put ns n).map Node.key = if n.key ∈ ns.map Node.key then ns.map Node.key else ns.map Node.key ++ [n.key] := by
  induction ns with
  | nil => rfl
  | cons m ms ih =>
    by_cases h : m.key = n.key
    · simp [put, h]
    · have h' : n.key ≠ m.key := fun e => h e.symm
      simp only [put, h, if_false, List.map_cons, ih, List.mem_cons, h', false_or]
      split <;> rfl

theorem nodup_keys_foldl_put : ∀ (ns acc : List Node), (acc.map Node.key).Nodup → ((ns.foldl put acc).map Node.key).Nodup
  | [], _, h => h
  | n :: ns, acc, h => by
    refine nodup_keys_foldl_put ns (put acc n) ?_
    rw [keys_put]
    split
    · exact h
    · rename_i hn
      exact List.nodup_append.2 ⟨h, List.nodup_singleton _, fun a ha b hb => by
        rintro rfl
        exact hn (List.mem_singleton.1 hb ▸ ha)⟩

theorem nodup_keys_ofList (ns : List Node) : ((ofList ns).map Node.key).Nodup := nodup_keys_foldl_put ns [] List.nodup_nil

end Node

namespace Layout

theorem readGroup_eq_ok {es : Value.Entries} {g : Group} {ns : List Node} (h : (readGroup es g).outcome = .ok ns) :
    (∀ n ∈ ns, n.Fits ∧ n.spec.kind = g.kind) ∧ (ns.map Node.key).Nodup := by
  unfold readGroup at h
  dsimp only at h
  split at h
  · obtain rfl : [] = ns := by simpa using h
    simp
  · split at h
    · simp only [Traced.outcome_bind_eq_ok_iff, Traced.outcome_pure, Except.ok.injEq] at h
      obtain ⟨nodes, hnodes, rfl⟩ := h
      refine ⟨fun n hn => ?_, Node.nodup_keys_ofList nodes⟩
      obtain ⟨e, _, hread⟩ := Traced.exists_of_mem_mapM hnodes (Node.mem_of_mem_ofList hn)
      exact Node.fits_of_read hread
    · simp at h

theorem read_eq_ok {tree : Value} {l : Layout} (h : (read tree).outcome = .ok l) :
    ∃ (es : Value.Entries) (groups : List (Group × List Node)), unwrap tree = .map es ∧ groups.map Prod.fst = Group.all ∧
      (∀ gn ∈ groups, (readGroup es gn.1).outcome = .ok gn.2) ∧
      l.devices = groups.flatMap (fun gn => gn.2.map (⟨gn.1, ·⟩)) := by
  unfold read at h
  split at h
  · rename_i es hes
    simp only [Traced.outcome_bind_eq_ok_iff, Traced.outcome_liftM] at h
    obtain ⟨unknown, _, h⟩ := h
    split at h
    · simp [Traced.outcome_bind_eq_ok_iff] at h
    · simp only [Traced.outcome_bind_eq_ok_iff, Traced.outcome_pure, Except.ok.injEq] at h
      obtain ⟨groups, hgroups, _, _, rfl⟩ := h
      have hread : ∀ g gn, (do let nodes ← readGroup es g; pure (g, nodes) : Logged (Group × List Node)).outcome = .ok gn →
          g = gn.1 ∧ (readGroup es gn.1).outcome = .ok gn.2 := by
        intro g gn hgn
        simp only [Traced.outcome_bind_eq_ok_iff, Traced.outcome_pure, Except.ok.injEq] at hgn
        obtain ⟨ns, hns, rfl⟩ := hgn
        exact ⟨rfl, hns⟩
      refine ⟨es, groups, hes, ?_, fun gn hgn => ?_, rfl⟩
      · have hsame := (Traced.outcome_mapM_eq_ok_iff.1 hgroups).imp (fun g gn hgn => (hread g gn hgn).1)
        rw [← List.forall₂_map_right_iff, List.forall₂_eq_eq_eq] at hsame
        exact hsame.symm
      · obtain ⟨g, _, hgn⟩ := Traced.exists_of_mem_mapM hgroups hgn
        exact (hread g gn hgn).2
  · simp at h

/-- **A layout that was read is well formed.** -/
theorem wellFormed_of_read {tree : Value} {l : Layout} (h : (read tree).outcome = .ok l) : l.WellFormed := by
  obtain ⟨es, groups, _, hnames, hgroup, hdevices⟩ := read_eq_ok h
  have hdevice (d : Device) (hd : d ∈ l.devices) : d.node.Fits ∧ d.node.spec.kind = d.group.kind := by
    rw [hdevices] at hd
    obtain ⟨gn, hgn, hd⟩ := List.mem_flatMap.1 hd
    obtain ⟨n, hn, rfl⟩ := List.mem_map.1 hd
    exact (readGroup_eq_ok (hgroup gn hgn)).1 n hn
  refine ⟨fun d hd => (hdevice d hd).1, fun d hd => (hdevice d hd).2, ?_⟩
  have hrefs : l.refs = groups.flatMap (fun gn => (gn.2.map Node.key).map (fun k => ⟨gn.1.name, k⟩)) := by
    simp only [refs, hdevices, List.map_flatMap, List.map_map]
    rfl
  rw [hrefs, List.nodup_flatMap]
  refine ⟨fun gn hgn => ?_, ?_⟩
  · exact (readGroup_eq_ok (hgroup gn hgn)).2.map (fun a b e => (DeviceRef.mk.inj e).2)
  · have hnodup : (groups.map Prod.fst).Nodup := hnames ▸ (by decide)
    refine (List.pairwise_map.1 hnodup).imp (fun {a b} hne r ha hb => ?_)
    simp only [List.mem_map] at ha hb
    obtain ⟨_, _, rfl⟩ := ha
    obtain ⟨_, _, hb⟩ := hb
    exact hne (Group.name_injective (DeviceRef.mk.inj hb).1.symm)

theorem mem_of_mem_inOrder {l : Layout} {order : List DeviceRef} {d : Device} (h : d ∈ l.inOrder order) : d ∈ l.devices := by
  obtain ⟨_, _, h⟩ := List.mem_filterMap.1 h
  exact List.mem_of_find?_eq_some h

theorem exists_find? {l : Layout} {r : DeviceRef} (h : r ∈ l.refs) :
    ∃ d ∈ l.devices, d.ref = r ∧ l.devices.find? (fun e => e.ref == r) = some d := by
  obtain ⟨d, hd, hr⟩ := List.mem_map.1 h
  cases he : l.devices.find? (fun e => e.ref == r) with
  | none => exact absurd (beq_iff_eq.2 hr) (List.find?_eq_none.1 he d hd)
  | some e => exact ⟨e, List.mem_of_find?_eq_some he, by simpa using List.find?_some he, rfl⟩

theorem WellFormed.find?_ref {l : Layout} (hl : l.WellFormed) {d : Device} (hd : d ∈ l.devices) :
    l.devices.find? (fun e => e.ref == d.ref) = some d := by
  obtain ⟨e, he, hr, hfind⟩ := exists_find? (List.mem_map_of_mem hd : d.ref ∈ l.refs)
  rw [hfind, List.inj_on_of_nodup_map hl.nodup he hd hr]

theorem map_ref_inOrder {l : Layout} : ∀ {order : List DeviceRef}, order ⊆ l.refs → (l.inOrder order).map Device.ref = order
  | [], _ => rfl
  | r :: order, h => by
    obtain ⟨d, -, rfl, hfind⟩ := exists_find? (h List.mem_cons_self)
    have ih := map_ref_inOrder (l := l) (fun x hx => h (List.mem_cons_of_mem _ hx))
    rw [inOrder] at ih ⊢
    simp only [List.filterMap_cons, hfind, List.map_cons, ih]

/-- **The devices in an order of all references** are those of the layout, each once. -/
theorem WellFormed.perm_inOrder {l : Layout} (hl : l.WellFormed) {order : List DeviceRef} (h : order.Perm l.refs) :
    (l.inOrder order).Perm l.devices := by
  have hrefs : l.inOrder l.refs = l.devices := by
    rw [inOrder, refs, List.filterMap_map]
    exact (List.filterMap_congr (fun d hd => hl.find?_ref hd)).trans List.filterMap_some
  exact hrefs ▸ h.filterMap _

end Layout

end Provision
