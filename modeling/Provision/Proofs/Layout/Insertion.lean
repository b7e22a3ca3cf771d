import Provision.Proofs.Layout.WellFormed
/-!
# One entry more in a group

A layout into whose mapping of a group an entry is put, under a key that no other entry has, reads as before with one device
more (`Layout.read_insert`): nodes are listed by their keys, so whatever comes before or after stays where it is.
-/
namespace Provision

open Value (Entries)

namespace Node

theorem put_insert {x n : Node} (hn : n.key ≠ x.key) : ∀ (before after : List Node),
    ∃ before' after', put (before ++ after) n = before' ++ after' ∧ put (before ++ x :: after) n = before' ++ x :: after'
  | [], after => ⟨[], put after n, rfl, by rw [List.nil_append, put, if_neg hn.symm]; rfl⟩
  | m :: before, after => by
    by_cases hm : m.key = n.key
    · exact ⟨n :: before, after, by simp [put, hm], by simp [put, hm]⟩
    · obtain ⟨before', after', hput, hput'⟩ := put_insert hn before after
      exact ⟨m :: before', after', by simp [put, hm, hput], by simp [put, hm, hput']⟩

theorem foldl_put_insert {x : Node} : ∀ (ns before after : List Node), (∀ n ∈ ns, n.key ≠ x.key) →
    ∃ before' after', ns.foldl put (before ++ after) = before' ++ after' ∧
      ns.foldl put (before ++ x :: after) = before' ++ x :: after'
  | [], before, after, _ => ⟨before, after, rfl, rfl⟩
  | n :: ns, before, after, hns => by
    obtain ⟨hn, hns⟩ := List.forall_mem_cons.1 hns
    obtain ⟨before', after', hput, hput'⟩ := put_insert hn before after
    rw [List.foldl_cons, List.foldl_cons, hput, hput']
    exact foldl_put_insert ns before' after' hns

/-- **One node more among nodes of other keys** is one more in their list. -/
theorem ofList_insert {x : Node} {before after : List Node} (hbefore : ∀ n ∈ before, n.key ≠ x.key)
    (hafter : ∀ n ∈ after, n.key ≠ x.key) :
    ∃ before' after', ofList (before ++ after) = before' ++ after' ∧
    ofList (before ++ x :: after) = before' ++ x :: after' := by
  rw [ofList, ofList, List.foldl_append, List.foldl_append, List.foldl_cons]
  have hput : put (before.foldl put []) x = before.foldl put [] ++ [x] :=
    put_eq_append fun m hm => hbefore m (mem_of_mem_ofList hm)
  have h := foldl_put_insert after (before.foldl put []) [] hafter
  rwa [List.append_nil, ← hput] at h

end Node

namespace Layout

def groupEntries (es : Entries) (g : Group) : Entries :=
  match Entries.field es g.name with
  | .map named => named
  | _ => []

def readEntry (g : Group) (e : Value × Value) : Logged Node :=
  Node.read e.2 ⟨g.name ++ "." ++ e.1.toText, g.kind, some e.1, none⟩

theorem key_of_readEntry {g : Group} {e : Value × Value} {n : Node} (h : (readEntry g e).outcome = .ok n) :
    n.key = e.1.toText := by
  obtain ⟨_, _, _, _, _, _, hkey, _⟩ := Node.read_eq_ok h
  exact hkey

/-- A group is refused where it is given and no mapping; else its nodes are those of its entries, listed by their keys. -/
theorem readGroup_eq (es : Entries) (g : Group) :
    (readGroup es g = .fail (.layout g.name (.notDevices (Entries.field es g.name))) ∧ groupEntries es g = []) ∨
      readGroup es g = Node.ofList <$> (groupEntries es g).mapM (readEntry g) := by
  unfold readGroup
  dsimp only
  split
  · rename_i hgiven
    have hentries : groupEntries es g = [] := by
      unfold groupEntries
      split
      · rename_i named hnamed
        rw [hnamed] at hgiven
        simpa [Value.isGiven] using hgiven
      · rfl
    exact .inr (by rw [hentries]; rfl)
  · split
    · rename_i named hnamed
      have hentries : groupEntries es g = named := by rw [groupEntries, hnamed]
      exact .inr (by rw [hentries, map_eq_pure_bind]; rfl)
    · rename_i hother
      exact .inl ⟨rfl, by rw [groupEntries]; split; exacts [absurd ‹_› (hother _), rfl]⟩

theorem readGroup_eq_ofList {es : Entries} {g : Group} {ns : List Node} (h : (readGroup es g).outcome = .ok ns) :
    ∃ nodes, ((groupEntries es g).mapM (readEntry g)).outcome = .ok nodes ∧ ns = Node.ofList nodes := by
  obtain ⟨hrefused, -⟩ | hread := readGroup_eq es g
  · rw [hrefused] at h
    cases h
  · rw [hread, Traced.outcome_map] at h
    obtain ⟨nodes, hnodes, rfl⟩ := except_map_eq_ok_iff.1 h
    exact ⟨nodes, hnodes, rfl⟩

def groupNodes (es : Entries) (g : Group) : List Node := (readGroup es g).outcome.toOption.getD []

theorem devices_of_read {tree : Value} {l : Layout} (h : (read tree).outcome = .ok l) :
    ∃ es, unwrap tree = .map es ∧ (∀ g ∈ Group.all, (readGroup es g).outcome = .ok (groupNodes es g)) ∧
      l.devices = Group.all.flatMap (fun g => (groupNodes es g).map (⟨g, ·⟩)) := by
  obtain ⟨es, groups, hes, hnames, hgroups, hdevices⟩ := read_eq_ok h
  have hnodes (gn : Group × List Node) (hgn : gn ∈ groups) : groupNodes es gn.1 = gn.2 := by
    rw [groupNodes, hgroups gn hgn]
    rfl
  refine ⟨es, hes, fun g hg => ?_, ?_⟩
  · rw [← hnames] at hg
    obtain ⟨gn, hgn, rfl⟩ := List.mem_map.1 hg
    rw [hnodes gn hgn, hgroups gn hgn]
  · rw [hdevices, ← hnames, List.flatMap_map]
    exact List.flatMap_congr fun gn hgn => by rw [hnodes gn hgn]

theorem groupNodes_congr {es es' : Entries} {g : Group} (h : (readGroup es g).outcome = .ok (groupNodes es g))
    (h' : (readGroup es' g).outcome = .ok (groupNodes es' g)) (hsame : groupEntries es' g = groupEntries es g) :
    groupNodes es' g = groupNodes es g := by
  obtain ⟨nodes, hnodes, heq⟩ := readGroup_eq_ofList h
  obtain ⟨nodes', hnodes', heq'⟩ := readGroup_eq_ofList h'
  rw [hsame, hnodes] at hnodes'
  cases hnodes'
  rw [heq, heq']

/-- **A group with one entry more** has one node more. -/
theorem groupNodes_insert {es es' : Entries} {g : Group} {e : Value × Value} {before after : Entries}
    (h : (readGroup es g).outcome = .ok (groupNodes es g)) (h' : (readGroup es' g).outcome = .ok (groupNodes es' g))
    (hentries : groupEntries es g = before ++ after) (hentries' : groupEntries es' g = before ++ e :: after)
    (hfresh : ∀ f ∈ before ++ after, f.1.toText ≠ e.1.toText) :
    ∃ x nodes nodes', (readEntry g e).outcome = .ok x ∧ groupNodes es g = nodes ++ nodes' ∧
      groupNodes es' g = nodes ++ x :: nodes' := by
  obtain ⟨_, hall, heq⟩ := readGroup_eq_ofList h
  obtain ⟨_, hall', heq'⟩ := readGroup_eq_ofList h'
  rw [hentries, List.mapM_append] at hall
  rw [hentries', List.mapM_append, List.mapM_cons] at hall'
  simp only [Traced.outcome_bind_eq_ok_iff, Traced.outcome_pure, Except.ok.injEq] at hall hall'
  obtain ⟨bs, hbs, as, has, rfl⟩ := hall
  obtain ⟨bs', hbs', _, ⟨x, hx, as', has', rfl⟩, rfl⟩ := hall'
  cases hbs.symm.trans hbs'
  cases has.symm.trans has'
  have hkeys {fs : Entries} {ns : List Node} (hfs : fs ⊆ before ++ after) (hns : (fs.mapM (readEntry g)).outcome = .ok ns) :
      ∀ n ∈ ns, n.key ≠ x.key := by
    intro n hn
    obtain ⟨f, hf, hread⟩ := Traced.exists_of_mem_mapM hns hn
    rw [key_of_readEntry hread, key_of_readEntry hx]
    exact hfresh f (hfs hf)
  obtain ⟨nodes, nodes', hlist, hlist'⟩ := Node.ofList_insert (hkeys (List.subset_append_left _ _) hbs)
    (hkeys (List.subset_append_right _ _) has)
  exact ⟨x, nodes, nodes', hx, heq.trans hlist, heq'.trans hlist'⟩

end Layout

/-- **One entry more**: two layouts with the same entries in each group, but for one that only the second has, under a key of
its own. -/
def Value.Inserts (tree : Value) (g : Group) (e : Value × Value) (tree' : Value) : Prop :=
  ∃ es es' before after, Layout.unwrap tree = .map es ∧ Layout.unwrap tree' = .map es' ∧
    Layout.groupEntries es g = before ++ after ∧ Layout.groupEntries es' g = before ++ e :: after ∧
    (∀ f ∈ before ++ after, f.1.toText ≠ e.1.toText) ∧ ∀ h ≠ g, Layout.groupEntries es' h = Layout.groupEntries es h

/-- **A layout with one entry more** reads as the same devices and one more. -/
theorem Layout.read_insert {tree tree' : Value} {g : Group} {e : Value × Value} (h : tree.Inserts g e tree') {l l' : Layout}
    (hl : (read tree).outcome = .ok l) (hl' : (read tree').outcome = .ok l') :
    ∃ x before after, (readEntry g e).outcome = .ok x ∧
    l.devices = before ++ after ∧ l'.devices = before ++ ⟨g, x⟩ :: after := by
  obtain ⟨es, es', bs, as, hes, hes', hentries, hentries', hfresh, hothers⟩ := h
  obtain ⟨_, htree, hread, hdevices⟩ := devices_of_read hl
  obtain ⟨_, htree', hread', hdevices'⟩ := devices_of_read hl'
  cases htree.symm.trans hes
  cases htree'.symm.trans hes'
  have hmem : g ∈ Group.all := by cases g <;> decide
  obtain ⟨x, nodes, nodes', hx, hnodes, hnodes'⟩ :=
    groupNodes_insert (hread g hmem) (hread' g hmem) hentries hentries' hfresh
  obtain ⟨gs, hs, hall⟩ := List.append_of_mem hmem
  have hsame {fs : List Group} (hfs : fs ⊆ Group.all) (hg : g ∉ fs) :
      fs.flatMap (fun f => (groupNodes es' f).map (Device.mk f)) =
        fs.flatMap (fun f => (groupNodes es f).map (Device.mk f)) :=
    List.flatMap_congr fun f hf => by
      rw [groupNodes_congr (hread f (hfs hf)) (hread' f (hfs hf)) (hothers f fun e => hg (e ▸ hf))]
  have hnodup : (gs ++ g :: hs).Nodup := hall ▸ (by decide)
  obtain ⟨hgs, hhs⟩ := not_or.1 (List.mem_append.not.1 (List.nodup_middle.1 hnodup).notMem)
  rw [hall] at hsame
  refine ⟨x, gs.flatMap (fun f => (groupNodes es f).map (Device.mk f)) ++ nodes.map (Device.mk g),
    nodes'.map (Device.mk g) ++ hs.flatMap (fun f => (groupNodes es f).map (Device.mk f)), hx, ?_, ?_⟩
  · rw [hdevices, hall, List.flatMap_append, List.flatMap_cons, hnodes]
    simp only [List.map_append, List.append_assoc]
  · rw [hdevices', hall, List.flatMap_append, List.flatMap_cons, hnodes', hsame (List.subset_append_left _ _) hgs,
      hsame (fun _ hf => List.mem_append_right _ (List.mem_cons_of_mem _ hf)) hhs]
    simp only [List.map_append, List.map_cons, List.append_assoc, List.cons_append]

end Provision
