import Provision.Proofs.Layout.Attributes
/-!
# The named entries that are kept

Nodes are listed by their keys, and a key is the text of the key that the layout has.  Where two keys of a mapping have
one text, only one node stands for both: in the place of the first, with what the last one says (`Node.keys_ofList`,
`Node.mem_ofList_iff`).  So the nodes of a layout are those of all its declarations exactly where in every mapping of
names the keys have different texts (`entries_kept_of_read`).
-/
namespace Provision

open Value (Entries entry node)

namespace Node

theorem mem_put_iff {ns : List Node} (hns : (ns.map Node.key).Nodup) {n m : Node} :
    m ∈ put ns n ↔ m = n ∨ (m ∈ ns ∧ m.key ≠ n.key) := by
  induction ns with
  | nil => simp [put]
  | cons x xs ih =>
    obtain ⟨hx, hxs⟩ := List.nodup_cons.1 hns
    by_cases hkey : x.key = n.key
    · rw [put, if_pos hkey, List.mem_cons, List.mem_cons]
      refine or_congr_right ⟨fun hm => ⟨.inr hm, fun hmn => ?_⟩, fun hm => hm.1.resolve_left fun hmx => hm.2 (hmx ▸ hkey)⟩
      exact hx (hkey.trans hmn.symm ▸ List.mem_map_of_mem hm)
    · rw [put, if_neg hkey, List.mem_cons, List.mem_cons, ih hxs, or_left_comm, or_and_right]
      exact or_congr_right (or_congr_left ⟨fun hm => ⟨hm, hm ▸ hkey⟩, fun hm => hm.1⟩)

theorem ofList_append_singleton (ns : List Node) (n : Node) : ofList (ns ++ [n]) = put (ofList ns) n := by
  rw [ofList, ofList, List.foldl_append]
  rfl

/-- **Every key stands where it stood first.** -/
theorem keys_ofList (ns : List Node) : (ofList ns).map Node.key = (ns.map Node.key).eraseDups := by
  induction ns using List.reverseRecOn with
  | nil => rfl
  | append_singleton ns n ih =>
    rw [ofList_append_singleton, keys_put, ih, List.map_append, List.map_singleton, List.eraseDups_append]
    -- one node more adds its key only where it is new
    by_cases hmem : n.key ∈ ns.map Node.key
    · rw [if_pos (List.mem_eraseDups.2 hmem), List.removeAll, List.filter_cons_of_neg (by simpa using hmem)]
      simp
    · rw [if_neg (mt List.mem_eraseDups.1 hmem), List.removeAll, List.filter_cons_of_pos (by simpa using hmem)]
      simp [List.eraseDups_cons]

/-- **Of the nodes with one key the last is kept.** -/
theorem mem_ofList_iff {ns : List Node} {m : Node} :
    m ∈ ofList ns ↔ ∃ before after, ns = before ++ m :: after ∧ m.key ∉ after.map Node.key := by
  induction ns using List.reverseRecOn with
  | nil => simp [ofList]
  | append_singleton ns n ih =>
    rw [ofList_append_singleton, mem_put_iff (nodup_keys_ofList ns), ih]
    constructor
    · rintro (rfl | ⟨⟨before, after, rfl, hafter⟩, hkey⟩)
      · exact ⟨ns, [], rfl, List.not_mem_nil⟩
      · exact ⟨before, after ++ [n], by simp, by simpa using ⟨by simpa using hafter, hkey⟩⟩
    · rintro ⟨before, after, heq, hafter⟩
      obtain rfl | ⟨after, x, rfl⟩ := after.eq_nil_or_concat
      · exact .inl (List.singleton_inj.1 (List.append_inj' heq rfl).2.symm)
      · rw [List.concat_eq_append, ← List.cons_append, ← List.append_assoc] at heq
        obtain ⟨rfl, hx⟩ := List.append_inj' heq rfl
        obtain rfl := List.singleton_inj.1 hx
        simp only [List.concat_eq_append, List.map_append, List.mem_append, not_or, List.map_singleton,
          List.mem_singleton] at hafter
        exact .inr ⟨⟨before, after, rfl, hafter.1⟩, hafter.2⟩

theorem ofList_of_nodup {ns : List Node} (h : (ns.map Node.key).Nodup) : ofList ns = ns := by
  induction ns using List.reverseRecOn with
  | nil => rfl
  | append_singleton ns n ih =>
    rw [List.map_append, List.nodup_append] at h
    obtain ⟨hns, -, hapart⟩ := h
    rw [ofList_append_singleton, ih hns]
    exact put_eq_append fun m hm => hapart _ (List.mem_map_of_mem hm) _ (by simp)

/-- What listing by key leaves out: nothing exactly where the keys are different. -/
theorem exists_left_out (ns : List Node) :
    ∃ out, ns.Perm (ofList ns ++ out) ∧ (out = [] ↔ (ns.map Node.key).Nodup) := by
  -- what is kept is listed in another order, so it is a part of the list only up to a permutation
  have hsubset : ofList ns ⊆ ns := fun _ hm => mem_of_mem_ofList hm
  obtain ⟨kept, hkept, hsub⟩ := List.subperm_of_subset (nodup_keys_ofList ns).of_map hsubset
  obtain ⟨out, hout⟩ := hsub.exists_perm_append
  have hperm := hout.trans (hkept.append_right out)
  refine ⟨out, hperm, fun hnil => ?_, fun hnodup => ?_⟩
  · rw [hnil, List.append_nil] at hperm
    exact (hperm.map Node.key).nodup_iff.2 (nodup_keys_ofList ns)
  · have hlength := hperm.length_eq
    rw [ofList_of_nodup hnodup, List.length_append] at hlength
    exact List.length_eq_zero_iff.1 (by omega)

theorem length_ofList_eq_iff (ns : List Node) : (ofList ns).length = ns.length ↔ (ns.map Node.key).Nodup := by
  obtain ⟨out, hperm, hout⟩ := exists_left_out ns
  rw [← hout, hperm.length_eq, List.length_append, ← List.length_eq_zero_iff]
  omega

theorem length_subnodes_ofList (ns : List Node) : ((ofList ns).flatMap subnodes).length ≤ (ns.flatMap subnodes).length ∧
    (((ofList ns).flatMap subnodes).length = (ns.flatMap subnodes).length ↔ (ns.map Node.key).Nodup) := by
  obtain ⟨out, hperm, hout⟩ := exists_left_out ns
  have hnil : (out.flatMap subnodes).length = 0 ↔ out = [] := by
    rw [List.length_eq_zero_iff, ← subnodesAll_eq_flatMap, subnodesAll_eq_nil_iff]
  rw [← hout, ← hnil, (hperm.flatMap_right subnodes).length_eq, List.flatMap_append, List.length_append]
  omega

theorem option?_toValue_of_named {n : Node} {option : String} {kind : Kind} (h : n.spec.kind.holding = .named option kind) :
    n.toValue.option? option = some (.map (n.children.map (fun c => (.text c.key, c.toValue)))) := by
  rw [toValue_eq, Value.option?, Value.get?_map_entry, toValues_eq_map]
  cases hspec : n.spec <;> rw [hspec] at h <;> cases h <;>
    simp [Spec.fields, Spec.heldField, List.lookup_cons, Function.comp_def]

end Node

theorem length_flatMap_of_forall₂ {α β γ δ : Type} {f : α → List γ} {g : β → List δ} {P : α → Prop} {xs : List α}
    {ys : List β}
    (h : List.Forall₂ (fun x y => (g y).length ≤ (f x).length ∧ ((g y).length = (f x).length ↔ P x)) xs ys) :
    (ys.flatMap g).length ≤ (xs.flatMap f).length ∧ ((ys.flatMap g).length = (xs.flatMap f).length ↔ ∀ x ∈ xs, P x) := by
  induction h with
  | nil => simp
  | cons hxy _ ih =>
    obtain ⟨hle, hiff⟩ := hxy
    obtain ⟨hle', hiff'⟩ := ih
    rw [List.flatMap_cons, List.flatMap_cons, List.length_append, List.length_append, List.forall_mem_cons, ← hiff, ← hiff']
    omega

namespace Declaration

def name (d : Declaration) : String := d.place.name?.getD ""

theorem key_eq_name {d : Declaration} {n : Node} (h : d.read.outcome = .ok n) : n.key = d.name := by
  obtain ⟨_, _, _, _, _, _, _, _, hkey, _⟩ := read_eq_ok h
  exact hkey

abbrev ReadAs (ds : List Declaration) (ns : List Node) : Prop := List.Forall₂ (fun d n => d.read.outcome = .ok n) ds ns

theorem ReadAs.names {ds : List Declaration} {ns : List Node} (h : ReadAs ds ns) : ns.map Node.key = ds.map name := by
  induction h with
  | nil => rfl
  | cons hread _ ih => rw [List.map_cons, List.map_cons, key_eq_name hread, ih]

/-- **What is kept of named declarations**: every name once, where it stands first, with the node of the last
declaration that has it.  All are kept exactly where their names are different. -/
structure Keeps (ds : List Declaration) (ns : List Node) : Prop where
  names : ns.map Node.key = (ds.map name).eraseDups
  last : ∀ n ∈ ns, ∃ before d after, ds = before ++ d :: after ∧ d.name ∉ after.map name ∧ d.read.outcome = .ok n
  readAs_iff : ReadAs ds ns ↔ (ds.map name).Nodup
  length_iff : ns.length = ds.length ↔ (ds.map name).Nodup

theorem ReadAs.keeps {ds : List Declaration} {nodes : List Node} (h : ReadAs ds nodes) : Keeps ds (Node.ofList nodes) := by
  have hlength := Node.length_ofList_eq_iff nodes
  rw [h.names, ← h.length_eq] at hlength
  refine ⟨h.names ▸ Node.keys_ofList nodes, fun n hn => ?_,
    ⟨fun hread => hlength.1 hread.length_eq.symm, fun hnodup => ?_⟩, hlength⟩
  · obtain ⟨before, after, rfl, hafter⟩ := Node.mem_ofList_iff.1 hn
    obtain ⟨ds₁, d, ds₂, rfl, hread, hds₂⟩ := exists_append_cons_of_forall₂ h
    rw [key_eq_name hread, ReadAs.names hds₂] at hafter
    exact ⟨ds₁, d, ds₂, rfl, hafter, hread⟩
  · rwa [Node.ofList_of_nodup (h.names ▸ hnodup)]

def named (d : Declaration) : List Declaration :=
  match d.place.kind.holding with
  | .named .. => d.below
  | _ => []

def all (d : Declaration) : List Declaration := d :: d.below.attach.flatMap (fun b => all b.1)
termination_by sizeOf d.raw
decreasing_by exact sizeOf_lt_of_mem_below b.2

theorem all_eq (d : Declaration) : d.all = d :: d.below.flatMap all := by
  rw [all, List.flatMap_subtype (g := all) (fun _ _ => rfl), List.unattach_attach]

/-- At any depth below, the names of one mapping are different. -/
def Distinct (d : Declaration) : Prop := ∀ b ∈ d.all, (b.named.map name).Nodup

theorem distinct_iff {d : Declaration} : d.Distinct ↔ (d.named.map name).Nodup ∧ ∀ b ∈ d.below, b.Distinct := by
  simp only [Distinct, all_eq d, List.forall_mem_cons, List.mem_flatMap, forall_exists_index, and_imp]
  exact and_congr_right fun _ => ⟨fun h b hb c hc => h c b hb hc, fun h c b hb hc => h b hb c hc⟩

/-- What a node holds: the nodes below, by their names where they are named. -/
theorem children_eq {d : Declaration} {nodes ns : List Node} (h : d.place.kind.holding.collect d.place.path nodes = .ok ns) :
    ns = Node.ofList nodes ∧ d.named = d.below ∨ ns = nodes ∧ d.named = [] := by
  unfold named
  cases hholding : d.place.kind.holding with
  | named option kind =>
    rw [hholding] at h
    exact .inl ⟨(Except.ok.inj h).symm, rfl⟩
  | partitions =>
    rw [hholding] at h
    obtain ⟨_, -, rfl⟩ := except_map_eq_ok_iff.1 h
    exact .inr ⟨rfl, rfl⟩
  | none | content slot =>
    rw [hholding] at h
    exact .inr ⟨(Except.ok.inj h).symm, rfl⟩

/-- **A tree has at most as many nodes as it has declarations**, and as many only where all names are different. -/
theorem length_subnodes_of_read {d : Declaration} {n : Node} (h : d.read.outcome = .ok n) :
    n.subnodes.length ≤ d.all.length ∧ (n.subnodes.length = d.all.length ↔ d.Distinct) := by
  obtain ⟨-, -, nodes, -, -, hnodes, hcollect, -⟩ := read_eq_ok h
  -- what is read below has at most a node for each declaration, and what is held of it at most the nodes that were read
  have hread : (nodes.flatMap Node.subnodes).length ≤ (d.below.flatMap all).length ∧
      ((nodes.flatMap Node.subnodes).length = (d.below.flatMap all).length ↔ ∀ b ∈ d.below, b.Distinct) := by
    refine length_flatMap_of_forall₂ (forall₂_imp_of_mem hnodes fun b hb m hm => ?_)
    have hlt := sizeOf_lt_of_mem_below hb
    exact length_subnodes_of_read hm
  have hheld : (n.children.flatMap Node.subnodes).length ≤ (nodes.flatMap Node.subnodes).length ∧
      ((n.children.flatMap Node.subnodes).length = (nodes.flatMap Node.subnodes).length ↔ (d.named.map name).Nodup) := by
    obtain ⟨hchildren, hnamed⟩ | ⟨hchildren, hnamed⟩ := children_eq hcollect <;> rw [hchildren, hnamed]
    · rw [← ReadAs.names hnodes]
      exact Node.length_subnodes_ofList nodes
    · simp
  rw [all_eq, Node.subnodes_eq, Node.subnodesAll_eq_flatMap, List.length_cons, List.length_cons, distinct_iff,
    ← hread.2, ← hheld.2]
  omega
termination_by sizeOf d.raw

/-- **Where all names are different, every declaration has its node**, in its place. -/
theorem Distinct.readAs_subnodes {d : Declaration} {n : Node} (hd : d.Distinct) (h : d.read.outcome = .ok n) :
    ReadAs d.all n.subnodes := by
  obtain ⟨-, -, nodes, -, -, hnodes, hcollect, -⟩ := read_eq_ok h
  obtain ⟨hnodup, hbelow⟩ := distinct_iff.1 hd
  have hchildren : n.children = nodes := by
    obtain ⟨hchildren, hnamed⟩ | ⟨hchildren, -⟩ := children_eq hcollect
    · rw [hnamed, ← ReadAs.names hnodes] at hnodup
      rw [hchildren, Node.ofList_of_nodup hnodup]
    · exact hchildren
  have hall : List.Forall₂ (fun b m => ReadAs b.all m.subnodes) d.below nodes := by
    refine forall₂_imp_of_mem hnodes fun b hb m hm => ?_
    have hlt := sizeOf_lt_of_mem_below hb
    exact (hbelow b hb).readAs_subnodes hm
  rw [all_eq, Node.subnodes_eq, Node.subnodesAll_eq_flatMap, hchildren]
  exact .cons h (List.rel_flatMap hall fun _ _ hbm => hbm)
termination_by sizeOf d.raw

theorem mem_all_self (d : Declaration) : d ∈ d.all := by
  rw [all_eq]
  exact List.mem_cons_self

theorem mem_all_of_mem_below {d b c : Declaration} (hc : c ∈ d.all) (hb : b ∈ c.below) : b ∈ d.all := by
  rw [all_eq, List.mem_cons, List.mem_flatMap] at hc ⊢
  obtain rfl | ⟨e, he, hc⟩ := hc
  · exact .inr ⟨b, hb, b.mem_all_self⟩
  · have hlt := sizeOf_lt_of_mem_below he
    exact .inr ⟨e, he, mem_all_of_mem_below hc hb⟩
termination_by sizeOf d.raw

theorem declares_of_mem_all {tree : Value} {d b : Declaration} (hd : tree.Declares d) (hb : b ∈ d.all) :
    tree.Declares b := by
  rw [all_eq, List.mem_cons, List.mem_flatMap] at hb
  obtain rfl | ⟨c, hc, hb⟩ := hb
  · exact hd
  · have hlt := sizeOf_lt_of_mem_below hc
    exact declares_of_mem_all (hd.held hc) hb
termination_by sizeOf d.raw

end Declaration

def Group.declarations (g : Group) (tree : Value) : List Declaration :=
  match Layout.unwrap tree with
  | .map es => (Layout.groupEntries es g).map g.declaration
  | _ => []

def Value.declarations (tree : Value) : List Declaration :=
  Group.all.flatMap (fun g => (g.declarations tree).flatMap Declaration.all)

theorem Value.mem_declarations_iff {tree : Value} {d : Declaration} : d ∈ tree.declarations ↔ tree.Declares d := by
  simp only [Value.declarations, List.mem_flatMap]
  constructor
  · rintro ⟨g, -, top, htop, hd⟩
    refine Declaration.declares_of_mem_all ?_ hd
    unfold Group.declarations at htop
    split at htop
    · obtain ⟨e, he, rfl⟩ := List.mem_map.1 htop
      exact .device ‹_› he
    · cases htop
  · intro h
    induction h with
    | @device es g e hes he =>
      refine ⟨g, g.mem_all, g.declaration e, ?_, Declaration.mem_all_self _⟩
      rw [Group.declarations, hes]
      exact List.mem_map_of_mem he
    | held _ hb ih =>
      obtain ⟨g, hg, top, htop, hd⟩ := ih
      exact ⟨g, hg, top, htop, Declaration.mem_all_of_mem_below hd hb⟩

namespace Layout

def nodesOf (l : Layout) (g : Group) : List Node := (l.devices.filter (·.group == g)).map Device.node

theorem groupValue_eq (l : Layout) (g : Group) :
    l.groupValue g = .map ((l.nodesOf g).map (fun n => (.text n.key, n.toValue))) := by
  rw [groupValue, nodesOf, List.map_map]
  rfl

variable {tree : Value} {l : Layout} (h : (read tree).outcome = .ok l)
include h

theorem nodesOf_of_read {es : Entries} (hes : unwrap tree = .map es) (g : Group) : l.nodesOf g = groupNodes es g := by
  obtain ⟨_, hes', -, hdevices⟩ := devices_of_read h
  cases hes.symm.trans hes'
  rw [nodesOf, hdevices]
  cases g <;> simp [Group.all, List.filter_map, Function.comp_def, beq_eq_decide]

theorem exists_readAs_of_read (g : Group) :
    ∃ nodes, Declaration.ReadAs (g.declarations tree) nodes ∧ l.nodesOf g = Node.ofList nodes := by
  obtain ⟨es, hes, -, -⟩ := devices_of_read h
  obtain ⟨nodes, hnodes, hlist⟩ := exists_nodes_of_read h hes g
  rw [Group.declarations, hes]
  exact ⟨nodes, List.forall₂_map_left_iff.2 hnodes, (nodesOf_of_read h hes g).trans hlist⟩

theorem nodes_of_read : l.nodes = Group.all.flatMap (fun g => (l.nodesOf g).flatMap Node.subnodes) := by
  obtain ⟨es, hes, -, hdevices⟩ := devices_of_read h
  rw [nodes, Node.subnodesAll_eq_flatMap, hdevices, List.map_flatMap, List.flatMap_assoc]
  exact List.flatMap_congr fun g _ => by rw [nodesOf_of_read h hes, List.map_map, List.flatMap_map]; rfl

/-- **A layout has as many nodes as it has declarations only where all names are different**, of its groups and at any depth
below. -/
theorem length_nodes_of_read : l.nodes.length = tree.declarations.length ↔
    ∀ g : Group, ((g.declarations tree).map Declaration.name).Nodup ∧ ∀ d ∈ g.declarations tree, d.Distinct := by
  have hgroup (g : Group) : ((l.nodesOf g).flatMap Node.subnodes).length ≤
      ((g.declarations tree).flatMap Declaration.all).length ∧
      (((l.nodesOf g).flatMap Node.subnodes).length = ((g.declarations tree).flatMap Declaration.all).length ↔
        ((g.declarations tree).map Declaration.name).Nodup ∧ ∀ d ∈ g.declarations tree, d.Distinct) := by
    obtain ⟨nodes, hnodes, hlist⟩ := exists_readAs_of_read h g
    have hread := length_flatMap_of_forall₂ (hnodes.imp fun _ _ => Declaration.length_subnodes_of_read)
    have hkept := Node.length_subnodes_ofList nodes
    rw [hnodes.names] at hkept
    rw [hlist, ← hread.2, ← hkept.2]
    omega
  rw [nodes_of_read h, Value.declarations, (length_flatMap_of_forall₂ (List.forall₂_same.2 fun g _ => hgroup g)).2]
  exact ⟨fun hall g => hall g g.mem_all, fun hall g _ => hall g⟩

/-- **Where all names are different, every declaration of a layout has its node**, in its place. -/
theorem readAs_nodes (hgroups : ∀ g : Group, ((g.declarations tree).map Declaration.name).Nodup)
    (hbelow : ∀ g : Group, ∀ d ∈ g.declarations tree, d.Distinct) : Declaration.ReadAs tree.declarations l.nodes := by
  have hgroup (g : Group) :
      Declaration.ReadAs ((g.declarations tree).flatMap Declaration.all) ((l.nodesOf g).flatMap Node.subnodes) := by
    obtain ⟨nodes, hnodes, hlist⟩ := exists_readAs_of_read h g
    rw [hlist, Node.ofList_of_nodup (hnodes.names ▸ hgroups g)]
    exact List.rel_flatMap (forall₂_imp_of_mem hnodes fun d hd _ hn => (hbelow g d hd).readAs_subnodes hn) fun _ _ hdn => hdn
  rw [nodes_of_read h]
  exact List.rel_flatMap (List.forall₂_same.2 fun g _ => hgroup g) fun _ _ hg => hg

end Layout

/-- **What becomes of the entries of a layout that was read.**  Of every group, and of every mapping of names at any
depth, every name is kept once, in the place of its first entry and with the node of its last one; so an entry is lost
only to another whose key has the same text, and none is lost, at any depth, exactly where no two keys of a mapping have
one text. -/
theorem entries_kept_of_read {tree : Value} {l : Layout} (h : (Layout.read tree).outcome = .ok l) :
    (∀ g : Group, l.groupValue g = .map ((l.nodesOf g).map (fun n => (.text n.key, n.toValue))) ∧
      Declaration.Keeps (g.declarations tree) (l.nodesOf g)) ∧
    (∀ d, tree.Declares d → ∀ option kind, d.place.kind.holding = .named option kind →
      ∃ n, d.read.outcome = .ok n ∧
        n.toValue.option? option = some (.map (n.children.map (fun c => (.text c.key, c.toValue)))) ∧
        Declaration.Keeps d.below n.children) ∧
    (Declaration.ReadAs tree.declarations l.nodes ↔
      (∀ g : Group, ((g.declarations tree).map Declaration.name).Nodup) ∧
        ∀ d, tree.Declares d → (d.named.map Declaration.name).Nodup) := by
  refine ⟨fun g => ?_, fun d hd option kind hholding => ?_, fun hread => ?_, fun ⟨hgroups, hbelow⟩ => ?_⟩
  · obtain ⟨nodes, hnodes, hlist⟩ := Layout.exists_readAs_of_read h g
    exact ⟨l.groupValue_eq g, hlist ▸ hnodes.keeps⟩
  · obtain ⟨n, hn⟩ := Layout.exists_read_of_declares h hd
    obtain ⟨-, -, nodes, -, -, hnodes, hcollect, -⟩ := Declaration.read_eq_ok hn
    have hkind : n.spec.kind = d.place.kind := (Node.fits_of_read hn).2
    rw [hholding] at hcollect
    replace hcollect : Node.ofList nodes = n.children := Except.ok.inj hcollect
    exact ⟨n, hn, Node.option?_toValue_of_named (hkind ▸ hholding), hcollect ▸ Declaration.ReadAs.keeps hnodes⟩
  -- one node for each declaration: so many nodes there are only where no name stands twice
  · have hall := (Layout.length_nodes_of_read h).1 hread.length_eq.symm
    refine ⟨fun g => (hall g).1, fun d hd => ?_⟩
    obtain ⟨g, -, hd⟩ := List.mem_flatMap.1 (Value.mem_declarations_iff.2 hd)
    obtain ⟨top, htop, hd⟩ := List.mem_flatMap.1 hd
    exact (hall g).2 top htop d hd
  · refine Layout.readAs_nodes h hgroups fun g top htop d hd => hbelow d (Value.mem_declarations_iff.1 ?_)
    exact List.mem_flatMap.2 ⟨g, g.mem_all, List.mem_flatMap.2 ⟨top, htop, hd⟩⟩

/-- Three volumes of a group, of which two are named by a truth value and by its text: the second of them stands in the
place of the first. -/
theorem entries_kept_of_read_of_truth_value :
    let tree : Value := .map [entry "lvm_vg"
      (.map [entry "vg" (.map [entry "lvs" (.map [(.bool true, .map [entry "size" (.text "1G")]),
      entry "home" (.map [entry "size" (.text "2G")]), entry "True" (.map [entry "size" (.text "3G")])])])])]
    ∃ l n, (Layout.read tree).outcome = .ok l ∧ l.nodesOf .volumeGroup = [n] ∧ n.children.map Node.key = ["True", "home"] ∧
      ¬ Declaration.ReadAs tree.declarations l.nodes := by
  intro tree
  have hchecked : (Group.volumeGroup.declarations tree).map (fun d => (d.place.kind, d.below.map Declaration.name)) =
      [(Kind.volumeGroup, ["True", "home", "True"])] := by decide +kernel
  obtain ⟨d, hdeclarations, hd⟩ := List.map_eq_singleton_iff.1 hchecked
  obtain ⟨hkind, hbelow⟩ := Prod.mk.inj hd
  have hholding : d.place.kind.holding = .named "lvs" .logicalVolume := by rw [hkind]; rfl
  obtain ⟨l, hl⟩ := Option.isSome_iff_exists.1 (by decide +kernel : (Layout.read tree).outcome.toOption.isSome = true)
  replace hl := eq_ok_of_toOption hl
  have hdeclared : tree.Declares d := by
    refine Value.mem_declarations_iff.1 (List.mem_flatMap.2 ⟨.volumeGroup, Group.mem_all _,
      List.mem_flatMap.2 ⟨d, ?_, d.mem_all_self⟩⟩)
    rw [hdeclarations]
    exact List.mem_cons_self
  obtain ⟨hgroups, hheld, hall⟩ := entries_kept_of_read hl
  obtain ⟨n, hn, -, hkeeps⟩ := hheld d hdeclared "lvs" .logicalVolume hholding
  have hgroup := (hgroups .volumeGroup).2.readAs_iff
  rw [hdeclarations] at hgroup
  refine ⟨l, n, hl, ?_, ?_, fun hread => ?_⟩
  · obtain ⟨m, ms, hm, hms, heq⟩ := List.forall₂_cons_left_iff.1 (hgroup.2 (List.nodup_singleton _))
    obtain rfl := List.forall₂_nil_left_iff.1 hms
    rw [heq, Except.ok.inj (hm.symm.trans hn)]
  · rw [hkeeps.names, hbelow]
    decide
  · have hnodup := (hall.1 hread).2 d hdeclared
    rw [Declaration.named, hholding, hbelow] at hnodup
    exact absurd hnodup (by decide)

/-- A number and its text as the names of two disks: the layout is read, and one of the disks is lost. -/
theorem disk_lost_of_number_and_its_text :
    let tree : Value := .map [entry "disk" (.map [(.int 1, .map [entry "device" (.text "/dev/sda")]),
      entry "1" (.map [entry "device" (.text "/dev/sdb")])])]
    ∃ l, (Layout.read tree).outcome = .ok l ∧ (Group.disk.declarations tree).length = 2 ∧ (l.nodesOf .disk).length = 1 ∧
      ∀ n ∈ l.nodesOf .disk, n.toValue.option? "device" = some (.text "/dev/sdb") := by
  intro tree
  have hchecked : (Layout.read tree).outcome.toOption.map (fun l => (l.nodesOf .disk).map (·.toValue.option? "device")) =
      some [some (.text "/dev/sdb")] := by decide +kernel
  obtain ⟨l, hl, hdevices⟩ := Option.map_eq_some_iff.1 hchecked
  refine ⟨l, eq_ok_of_toOption hl, by decide +kernel, ?_, fun n hn => ?_⟩
  · simpa using congrArg List.length hdevices
  · simpa [hdevices] using List.mem_map_of_mem (f := (·.toValue.option? "device")) hn

end Provision
