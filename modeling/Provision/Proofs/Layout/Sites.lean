import Provision.Proofs.Layout.WellFormed
import Provision.Proofs.Mount.Walk
/-!
# Where nodes stand

Two nodes of a layout can declare the same, so a node is told from others by its `Site`: the top-level device that it lies
under, and the numbers of the children on the way down to it.  One node encloses another where its way is a beginning of the
other's.  A walk meets every site once, and no node before one that encloses it (`Layout.WellFormed.pairwise_sited`).
-/
namespace Provision

/-- Where a node stands: under which top-level device, and by which numbers of children it is reached from there. -/
structure Site where
  device : DeviceRef
  path : List Nat
  deriving DecidableEq, Repr

namespace Site

/-- Whether the node at one site holds the node at another, directly or through others. -/
def Encloses (s t : Site) : Prop := s.device = t.device ∧ s.path <+: t.path ∧ s.path ≠ t.path

instance (s t : Site) : Decidable (s.Encloses t) := inferInstanceAs (Decidable (_ ∧ _ ∧ _))

theorem not_encloses_self (s : Site) : ¬ s.Encloses s := fun h => h.2.2 rfl

/-- Whether neither of two nodes is the other or holds it. -/
def Apart (s t : Site) : Prop := s ≠ t ∧ ¬ s.Encloses t ∧ ¬ t.Encloses s

instance (s t : Site) : Decidable (s.Apart t) := inferInstanceAs (Decidable (_ ∧ _ ∧ _))

theorem apart_iff {d : DeviceRef} {p q : List Nat} : Apart ⟨d, p⟩ ⟨d, q⟩ ↔ ¬ p <+: q ∧ ¬ q <+: p := by
  simp only [Apart, Encloses, ne_eq, mk.injEq, true_and, not_and, not_not]
  constructor
  · rintro ⟨hne, hpq, hqp⟩
    exact ⟨fun h => hne (hpq h), fun h => hne (hqp h).symm⟩
  · rintro ⟨hpq, hqp⟩
    exact ⟨fun h => hpq (h ▸ List.prefix_rfl), fun h => absurd h hpq, fun h => absurd h hqp⟩

theorem apart_of_device_ne {s t : Site} (h : s.device ≠ t.device) : s.Apart t :=
  ⟨fun e => h (congrArg device e), fun e => h e.1, fun e => h e.1.symm⟩

end Site

namespace Node

def at? : Node → List Nat → Option Node
  | n, [] => some n
  | n, i :: path => n.children[i]?.bind (fun c => c.at? path)

mutual

/-- The nodes that a walk meets with the ways to them, each before those below it. -/
def sited : Node → Context → List (List Nat × Visit)
  | ⟨key, spec, hooks, children⟩, ctx =>
    ([], ⟨⟨key, spec, hooks, children⟩, ctx⟩) :: match spec.handed? ctx with
      | some inner => sitedAll 0 children inner
      | none => []

def sitedAll : Nat → List Node → Context → List (List Nat × Visit)
  | _, [], _ => []
  | i, n :: ns, ctx => (sited n ctx).map (fun s => (i :: s.1, s.2)) ++ sitedAll (i + 1) ns ctx

end

theorem sited_eq (n : Node) (ctx : Context) :
    n.sited ctx = ([], ⟨n, ctx⟩) :: match n.spec.handed? ctx with
      | some inner => sitedAll 0 n.children inner
      | none => [] := by
  cases n
  rw [sited]

mutual

theorem map_snd_sited : ∀ (n : Node) (ctx : Context), (n.sited ctx).map Prod.snd = n.visits ctx
  | ⟨key, spec, hooks, children⟩, ctx => by
    rw [sited_eq, visits_eq, List.map_cons]
    cases spec.handed? ctx with
    | some inner => exact congrArg _ (map_snd_sitedAll 0 children inner)
    | none => rfl

theorem map_snd_sitedAll : ∀ (i : Nat) (ns : List Node) (ctx : Context), (sitedAll i ns ctx).map Prod.snd = visitsAll ns ctx
  | _, [], _ => rfl
  | i, n :: ns, ctx => by
    rw [sitedAll, visitsAll, List.map_append, List.map_map, map_snd_sitedAll (i + 1) ns ctx]
    exact congrArg (· ++ _) (map_snd_sited n ctx)

end

theorem exists_of_mem_sitedAll : ∀ {i : Nat} {ns : List Node} {ctx : Context} {s : List Nat × Visit}, s ∈ sitedAll i ns ctx →
    ∃ k c path, ns[k]? = some c ∧ s.1 = (i + k) :: path ∧ (path, s.2) ∈ c.sited ctx
  | _, [], _, _, hs => absurd hs List.not_mem_nil
  | i, n :: ns, ctx, s, hs => by
    rcases List.mem_append.1 hs with hs | hs
    · obtain ⟨⟨path, v⟩, hv, rfl⟩ := List.mem_map.1 hs
      exact ⟨0, n, path, rfl, rfl, hv⟩
    · obtain ⟨k, c, path, hc, hpath, hs⟩ := exists_of_mem_sitedAll hs
      exact ⟨k + 1, c, path, hc, by rw [hpath, Nat.add_right_comm, Nat.add_assoc], hs⟩

/-- **The ways lead to the nodes** that are met. -/
theorem at?_of_mem_sited : ∀ {path : List Nat} {n : Node} {ctx : Context} {v : Visit}, (path, v) ∈ n.sited ctx →
    n.at? path = some v.node
  | path, n, ctx, v, h => by
    rw [sited_eq] at h
    rcases List.mem_cons.1 h with h | h
    · cases h
      rfl
    · split at h
      · obtain ⟨k, c, below, hc, hpath, hbelow⟩ := exists_of_mem_sitedAll h
        obtain rfl : path = (0 + k) :: below := hpath
        rw [at?, Nat.zero_add, hc]
        exact at?_of_mem_sited hbelow
      · cases h
termination_by path => path.length

/-- A node on the way to another that is met holds nodes and places them. -/
theorem places_of_mem_sited : ∀ {path : List Nat} {n : Node} {ctx : Context} {v w : Visit} {i : Nat} {below : List Nat},
    (path, v) ∈ n.sited ctx → (path ++ i :: below, w) ∈ n.sited ctx → v.node.spec.places = true ∧ v.node.children ≠ []
  | [], n, ctx, v, w, i, below, hv, hw => by
    rw [sited_eq] at hv hw
    have hv : v = ⟨n, ctx⟩ := by
      rcases List.mem_cons.1 hv with hv | hv
      · exact (Prod.mk.inj hv).2
      · split at hv
        · obtain ⟨_, _, _, -, hpath, -⟩ := exists_of_mem_sitedAll hv
          cases hpath
        · cases hv
    subst hv
    rcases List.mem_cons.1 hw with hw | hw
    · cases hw
    · split at hw
      · rename_i inner hinner
        refine ⟨(Spec.handed?_eq_some_iff.1 hinner).1, fun hnone => ?_⟩
        rw [hnone] at hw
        cases hw
      · cases hw
  | j :: path, n, ctx, v, w, i, below, hv, hw => by
    rw [sited_eq] at hv hw
    replace hv := (List.mem_cons.1 hv).resolve_left (fun h => by cases h)
    replace hw := (List.mem_cons.1 hw).resolve_left (fun h => by cases h)
    split at hv
    · rename_i inner hinner
      rw [hinner] at hw
      obtain ⟨k, c, p, hc, hk, hv⟩ := exists_of_mem_sitedAll hv
      obtain ⟨k', c', p', hc', hk', hw⟩ := exists_of_mem_sitedAll hw
      obtain ⟨rfl, rfl⟩ := List.cons.inj hk
      obtain ⟨hkk, rfl⟩ := List.cons.inj hk'
      obtain rfl : k = k' := by omega
      cases hc.symm.trans hc'
      exact places_of_mem_sited hv hw
    · cases hv

mutual

/-- **No node is met after one that it encloses.** -/
theorem pairwise_sited : ∀ (n : Node) (ctx : Context), (n.sited ctx).Pairwise (fun s t => ¬ t.1 <+: s.1)
  | ⟨key, spec, hooks, children⟩, ctx => by
    rw [sited_eq, List.pairwise_cons]
    cases spec.handed? ctx with
    | some inner =>
      refine ⟨fun t ht => ?_, pairwise_sitedAll 0 children inner⟩
      obtain ⟨k, -, path, -, hpath, -⟩ := exists_of_mem_sitedAll ht
      simp [hpath]
    | none => exact ⟨List.forall_mem_nil _, .nil⟩

theorem pairwise_sitedAll : ∀ (i : Nat) (ns : List Node) (ctx : Context),
    (sitedAll i ns ctx).Pairwise (fun s t => ¬ t.1 <+: s.1)
  | _, [], _ => .nil
  | i, n :: ns, ctx => by
    rw [sitedAll, List.pairwise_append]
    refine ⟨?_, pairwise_sitedAll (i + 1) ns ctx, fun s hs t ht => ?_⟩
    · rw [List.pairwise_map]
      exact (pairwise_sited n ctx).imp (fun h hprefix => h (List.cons_prefix_cons.1 hprefix).2)
    · obtain ⟨s', -, rfl⟩ := List.mem_map.1 hs
      obtain ⟨k, -, path, -, hpath, -⟩ := exists_of_mem_sitedAll ht
      rw [hpath, List.cons_prefix_cons]
      omega

end

end Node

namespace Device

def sited (d : Device) (root : String) : List (Site × Visit) :=
  (d.node.sited (d.context root [])).map (fun s => (⟨d.ref, s.1⟩, s.2))

theorem map_snd_sited (d : Device) (root : String) : (d.sited root).map Prod.snd = d.visits root [] := by
  rw [sited, List.map_map]
  exact Node.map_snd_sited d.node _

theorem device_of_mem_sited {d : Device} {root : String} {s : Site × Visit} (h : s ∈ d.sited root) :
    s.1.device = d.ref := by
  obtain ⟨_, -, rfl⟩ := List.mem_map.1 h
  rfl

end Device

namespace Layout

def at? (l : Layout) (s : Site) : Option Node := (l.devices.find? (fun d => d.ref == s.device)).bind (·.node.at? s.path)

def sited (l : Layout) (root : String) (order : List DeviceRef) : List (Site × Visit) :=
  (l.inOrder order).flatMap (·.sited root)

theorem map_snd_sited (l : Layout) (root : String) (order : List DeviceRef) :
    (l.sited root order).map Prod.snd = (l.inOrder order).flatMap (·.visits root []) := by
  rw [sited, List.map_flatMap]
  simp only [Device.map_snd_sited]

theorem WellFormed.at?_of_mem_sited {l : Layout} (hl : l.WellFormed) {root : String} {order : List DeviceRef}
    {s : Site × Visit} (h : s ∈ l.sited root order) : l.at? s.1 = some s.2.node := by
  obtain ⟨d, hd, hs⟩ := List.mem_flatMap.1 h
  obtain ⟨⟨path, v⟩, hv, rfl⟩ := List.mem_map.1 hs
  rw [at?, hl.find?_ref (mem_of_mem_inOrder hd)]
  exact Node.at?_of_mem_sited hv

/-- **Every site is met once, and no node before one that encloses it.** -/
theorem WellFormed.pairwise_sited {l : Layout} (hl : l.WellFormed) (root : String) {order : List DeviceRef}
    (ho : order.Perm l.refs) : (l.sited root order).Pairwise (fun s t => s.1 ≠ t.1 ∧ ¬ t.1.Encloses s.1) := by
  have hdevices : (l.inOrder order).Pairwise (fun d e => d.ref ≠ e.ref) := by
    rw [← List.pairwise_map, map_ref_inOrder ho.subset]
    exact ho.nodup_iff.2 hl.nodup
  rw [sited, List.pairwise_flatMap]
  refine ⟨fun d _ => ?_, hdevices.imp (fun hne s hs t ht => ?_)⟩
  · rw [Device.sited, List.pairwise_map]
    exact (Node.pairwise_sited d.node _).imp
      (fun h => ⟨fun e => h ((Site.mk.inj e).2 ▸ List.prefix_rfl), fun e => h e.2.1⟩)
  · have hst : s.1.device ≠ t.1.device := by rwa [Device.device_of_mem_sited hs, Device.device_of_mem_sited ht]
    exact ⟨(Site.apart_of_device_ne hst).1, (Site.apart_of_device_ne hst).2.2⟩

end Layout

end Provision
