import Mathlib.Data.List.Flatten
import Provision.Proofs.Creation.Members
/-!
# Nodes that are placed

A dataset that is a filesystem may hold a node, but it has no device on which to place it: what lies below is a part of the
tree, yet not placed (`Node.placed`).  A walk that hands its context down meets exactly the placed nodes, each once
(`Node.map_node_visits_eq_placed`).  So what it gathers from the nodes is all there is to gather exactly where the nodes
below such datasets have nothing to add (`Node.flatMap_placedAll_eq_iff`).
-/
namespace Provision

section Sublists

variable {α β : Type}

theorem append_eq_append_iff_of_sublist {xs ys xs' ys' : List α} (h : xs.Sublist xs') (h' : ys.Sublist ys') :
    xs ++ ys = xs' ++ ys' ↔ xs = xs' ∧ ys = ys' := by
  refine ⟨fun heq => ?_, fun ⟨heq, heq'⟩ => by rw [heq, heq']⟩
  have hlength := h.length_le
  have hlength' := h'.length_le
  have hsum := congrArg List.length heq
  rw [List.length_append, List.length_append] at hsum
  exact ⟨h.eq_of_length (by omega), h'.eq_of_length (by omega)⟩

theorem perm_iff_eq_of_sublist {xs ys : List α} (h : xs.Sublist ys) : xs.Perm ys ↔ xs = ys :=
  ⟨fun hperm => h.eq_of_length hperm.length_eq, fun heq => heq ▸ .refl _⟩

theorem flatMap_eq_iff_of_sublist {f g : α → List β} : ∀ {xs : List α}, (∀ x ∈ xs, (f x).Sublist (g x)) →
    (xs.flatMap f = xs.flatMap g ↔ ∀ x ∈ xs, f x = g x)
  | [], _ => by simp
  | x :: xs, h => by
    obtain ⟨hx, hxs⟩ := List.forall_mem_cons.1 h
    rw [List.flatMap_cons, List.flatMap_cons, append_eq_append_iff_of_sublist hx (.flatMap_right xs hxs),
      flatMap_eq_iff_of_sublist hxs, List.forall_mem_cons]

end Sublists

namespace Node

mutual

/-- The nodes of a tree that are placed, each before those below it. -/
def placed : Node → List Node
  | ⟨key, spec, hooks, children⟩ =>
    ⟨key, spec, hooks, children⟩ :: if spec.places then placedAll children else []

def placedAll : List Node → List Node
  | [] => []
  | n :: ns => placed n ++ placedAll ns

end

theorem placed_eq (n : Node) : n.placed = n :: if n.spec.places then placedAll n.children else [] := by
  cases n
  rw [placed]

theorem subnodes_eq (n : Node) : n.subnodes = n :: subnodesAll n.children := by
  cases n
  rw [subnodes]

theorem placedAll_eq_flatMap (ns : List Node) : placedAll ns = ns.flatMap placed := by
  induction ns with
  | nil => rfl
  | cons n ns ih => rw [placedAll, List.flatMap_cons, ih]

theorem subnodesAll_eq_flatMap (ns : List Node) : subnodesAll ns = ns.flatMap subnodes := by
  induction ns with
  | nil => rfl
  | cons n ns ih => rw [subnodesAll, List.flatMap_cons, ih]

theorem mem_subnodes_iff {n m : Node} : m ∈ n.subnodes ↔ m = n ∨ ∃ c ∈ n.children, m ∈ c.subnodes := by
  rw [subnodes_eq, List.mem_cons, subnodesAll_eq_flatMap, List.mem_flatMap]

theorem Fits.exists_holder {n m : Node} (h : n.Fits) (hm : m ∈ n.subnodes) :
    m = n ∨ ∃ x ∈ n.subnodes, m ∈ x.children ∧ x.spec.kind.holding.takes m.spec.kind = true := by
  induction h with
  | @mk n hkinds _ ih =>
    obtain rfl | ⟨c, hc, hm⟩ := mem_subnodes_iff.1 hm
    · exact .inl rfl
    · obtain rfl | ⟨x, hx, hheld⟩ := ih c hc hm
      · exact .inr ⟨n, mem_subnodes_iff.2 (.inl rfl), hc, hkinds m hc⟩
      · exact .inr ⟨x, mem_subnodes_iff.2 (.inr ⟨c, hc, hx⟩), hheld⟩

theorem subnodesAll_eq_nil_iff {ns : List Node} : subnodesAll ns = [] ↔ ns = [] := by
  cases ns with
  | nil => exact ⟨fun _ => rfl, fun _ => rfl⟩
  | cons n ns => rw [subnodesAll, subnodes_eq]; simp

mutual

theorem placed_sublist : ∀ n : Node, n.placed.Sublist n.subnodes
  | ⟨key, spec, hooks, children⟩ => by
    rw [placed_eq, subnodes_eq]
    refine List.Sublist.cons_cons _ ?_
    dsimp only
    split
    · exact placedAll_sublist children
    · exact List.nil_sublist _

theorem placedAll_sublist : ∀ ns : List Node, (placedAll ns).Sublist (subnodesAll ns)
  | [] => .slnil
  | n :: ns => (placed_sublist n).append (placedAll_sublist ns)

end

mutual

theorem subnodes_subset_of_mem : ∀ n : Node, ∀ m ∈ n.subnodes, m.subnodes ⊆ n.subnodes
  | ⟨key, spec, hooks, children⟩, m, hm => by
    rcases List.mem_cons.1 (subnodes_eq _ ▸ hm) with rfl | hm
    · exact List.Subset.refl _
    · exact List.subset_cons_of_subset _ (subnodes_subset_of_mem_all children m hm)

theorem subnodes_subset_of_mem_all : ∀ ns : List Node, ∀ m ∈ subnodesAll ns, m.subnodes ⊆ subnodesAll ns
  | n :: ns, m, hm => by
    rcases List.mem_append.1 hm with hm | hm
    · exact List.subset_append_of_subset_left _ (subnodes_subset_of_mem n m hm)
    · exact List.subset_append_of_subset_right _ (subnodes_subset_of_mem_all ns m hm)

end

section Gather

variable {α : Type} (g : Node → List α)

mutual

theorem flatMap_placed_eq_iff : ∀ n : Node, n.placed.flatMap g = n.subnodes.flatMap g ↔
    ∀ m ∈ n.subnodes, m.spec.places = false → (subnodesAll m.children).flatMap g = []
  | ⟨key, spec, hooks, children⟩ => by
    rw [placed_eq, subnodes_eq, List.flatMap_cons, List.flatMap_cons, List.append_cancel_left_eq]
    dsimp only
    cases hp : spec.places with
    | true =>
      rw [if_pos rfl, flatMap_placedAll_eq_iff children, List.forall_mem_cons]
      simp [hp]
    | false =>
      rw [if_neg Bool.false_ne_true, List.forall_mem_cons, List.flatMap_nil]
      -- what lies deeper below has nothing to add either
      refine ⟨fun h => ⟨fun _ => h.symm, fun m hm _ => ?_⟩, fun h => (h.1 hp).symm⟩
      refine List.flatMap_eq_nil_iff.2 (fun x hx => List.flatMap_eq_nil_iff.1 h.symm x ?_)
      refine subnodes_subset_of_mem_all children m hm ?_
      rw [subnodes_eq]
      exact List.mem_cons_of_mem _ hx

/-- **What the placed nodes give is all that the nodes give** exactly where nodes that are not placed give nothing. -/
theorem flatMap_placedAll_eq_iff : ∀ ns : List Node, (placedAll ns).flatMap g = (subnodesAll ns).flatMap g ↔
    ∀ m ∈ subnodesAll ns, m.spec.places = false → (subnodesAll m.children).flatMap g = []
  | [] => by simp [placedAll, subnodesAll]
  | n :: ns => by
    rw [placedAll, subnodesAll, List.flatMap_append, List.flatMap_append,
      append_eq_append_iff_of_sublist ((placed_sublist n).flatMap g) ((placedAll_sublist ns).flatMap g),
      flatMap_placed_eq_iff n, flatMap_placedAll_eq_iff ns, List.forall_mem_append]

end

end Gather

mutual

/-- **A creation that succeeds meets every placed node of the tree once**, in its order. -/
theorem map_node_visits_eq_placed : ∀ (n : Node) (ctx : Context), (n.create ctx).outcome = .ok () →
    (n.visits ctx).map Visit.node = n.placed
  | ⟨key, spec, hooks, children⟩, ctx, h => by
    obtain ⟨-, hbelow, -⟩ := create_ok h
    have hb := createBelow_ok hbelow
    rw [visits_eq, placed_eq]
    dsimp only at hb ⊢
    split at hb
    · rename_i inner hinner
      rw [List.map_cons, map_node_visitsAll_eq_placedAll children inner hb.1, if_pos (Spec.handed?_eq_some_iff.1 hinner).1]
    · cases hp : spec.places with
      | true => rw [hb.2 hp]; rfl
      | false => rfl

theorem map_node_visitsAll_eq_placedAll : ∀ (ns : List Node) (ctx : Context), (createAll ns ctx).outcome = .ok () →
    (visitsAll ns ctx).map Visit.node = placedAll ns
  | [], _, _ => rfl
  | n :: ns, ctx, h => by
    rw [createAll] at h
    obtain ⟨_, hn, hns⟩ := Traced.outcome_bind_eq_ok_iff.1 h
    rw [visitsAll, placedAll, List.map_append, map_node_visits_eq_placed n ctx hn,
      map_node_visitsAll_eq_placedAll ns ctx hns]

end

end Node

namespace Layout

def nodes (l : Layout) : List Node := Node.subnodesAll (l.devices.map Device.node)

theorem mem_nodes_iff {l : Layout} {n : Node} : n ∈ l.nodes ↔ ∃ d ∈ l.devices, n ∈ d.node.subnodes := by
  simp [nodes, Node.subnodesAll_eq_flatMap]

end Layout

end Provision
