import Mathlib.Logic.Relation
import Provision.Proofs.Layout.Rewritten
import Provision.Proofs.Layout.Typed
import Provision.Proofs.Plan
import Provision.Value.Identity
/-!
# Layouts in another order

What is read from a mapping is looked up under a name, and what is not known there is sorted.  So neither the order of
the groups of a layout nor that of the options of a node is noticed (`compile_reordered`); the order of the devices of a
group, of partitions and of named collections is another matter.
-/
namespace Provision

open Value (Entries entry node)

def Value.Entries.names (es : Entries) : List Value := (es.map Prod.fst).filter isText

/-- The same entries in another order; no name is there twice. -/
def Value.Entries.Reordered (es fs : Entries) : Prop := es.Perm fs ∧ es.names.Nodup

namespace Node

theorem unknownKeys_perm {es fs : Entries} (h : es.Perm fs) (known : List String) :
    unknownKeys fs known = unknownKeys es known := by
  have hunknown := h.filterMap (fun e => unknownKey? known e.1)
  rw [unknownKeys_eq, unknownKeys_eq]
  dsimp only
  rw [hunknown.any_eq]
  split
  · rfl
  · have hsorted (ss : List String) : (ss.mergeSort (fun s t => decide (s ≤ t))).Pairwise (· ≤ ·) := by
      refine (List.pairwise_mergeSort (fun a b c hab hbc => ?_) (fun a b => ?_) ss).imp of_decide_eq_true
      · rw [decide_eq_true_eq] at hab hbc ⊢
        exact String.le_trans hab hbc
      · simpa using String.le_total a b
    have hperm (ss ts : List String) (h : ss.Perm ts) :
        (ts.mergeSort (fun s t => decide (s ≤ t))).Perm (ss.mergeSort (fun s t => decide (s ≤ t))) :=
      ((List.mergeSort_perm ts _).trans h.symm).trans (List.mergeSort_perm ss _).symm
    exact congrArg Except.ok ((hperm _ _ (hunknown.filterMap id)).eq_of_pairwise (fun a b _ _ => String.le_antisymm)
      (hsorted _) (hsorted _))

end Node

namespace Value

theorem get?_eq_some_iff {s : String} {v : Value} : ∀ {es : Entries}, es.names.Nodup →
    (Entries.get? es (.text s) = some v ↔ (.text s, v) ∈ es)
  | [], _ => by simp [Entries.get?]
  | (k, x) :: es, h => by
    have hes : (Entries.names es).Nodup := h.sublist ((List.sublist_cons_self k (es.map Prod.fst)).filter isText)
    have ih := get?_eq_some_iff (v := v) (s := s) hes
    by_cases hsame : same (.text s) k = true
    · obtain rfl := same_text_iff.1 hsame
      rw [Entries.names, List.map_cons, List.filter_cons_of_pos rfl] at h
      have hrest : (.text s, v) ∉ es := fun hmem =>
        (List.nodup_cons.1 h).1 (List.mem_filter.2 ⟨List.mem_map.2 ⟨_, hmem, rfl⟩, rfl⟩)
      simp [Entries.get?, hsame, hrest, eq_comm]
    · have hother : k ≠ .text s := fun e => hsame (same_text_iff.2 e)
      have hskip : Entries.get? ((k, x) :: es) (.text s) = Entries.get? es (.text s) := by simp [Entries.get?, hsame]
      rw [hskip, ih]
      simp [Ne.symm hother]

theorem get?_perm {es fs : Entries} (h : es.Reordered fs) (s : String) :
    Entries.get? fs (.text s) = Entries.get? es (.text s) := by
  have hfs : fs.names.Nodup := ((h.1.map Prod.fst).filter isText).nodup_iff.1 h.2
  refine Option.ext fun v => ?_
  rw [get?_eq_some_iff hfs, get?_eq_some_iff h.2, h.1.mem_iff]

theorem harmless_reordered : Harmless (fun _ => Entries.Reordered) where
  field h s := by rw [Entries.field, Entries.field, get?_perm h]
  type h := get?_perm h "type"
  keys h known := by rw [Node.unknownKeys_perm h.1]

end Value

namespace Layout

/-- **One mapping of the groups of a layout in another order**: that of the groups, or that of a node at any depth. -/
inductive GroupsReordered : Value → Value → Prop
  | groups {es fs : Entries} (h : es.Reordered fs) : GroupsReordered (.map es) (.map fs)
  | node {v w : Value} (h : Value.Rewritten (fun _ => Entries.Reordered) .implied v w) (g : Group) (k : Value)
      (before after groups groups' : Entries) :
      GroupsReordered (.map (groups ++ entry g.name (.map (before ++ (k, v) :: after)) :: groups'))
        (.map (groups ++ entry g.name (.map (before ++ (k, w) :: after)) :: groups'))

/-- **One mapping of a layout in another order**; the groups may be wrapped. -/
inductive Reordered : Value → Value → Prop
  | bare {v w : Value} (h : GroupsReordered v w) : Reordered v w
  | wrapped {v w : Value} (h : GroupsReordered v w) : Reordered (.map [entry "devices" v]) (.map [entry "devices" w])

/-- Two layouts end alike where the keys that they know and their groups do. -/
theorem outcome_read_congr {tree tree' : Value} {es fs : Entries} (hes : unwrap tree = .map es)
    (hfs : unwrap tree' = .map fs)
    (hkeys : ∀ known, Node.unknownKeys fs known = Node.unknownKeys es known)
    (hgroups : ∀ g, (readGroup fs g).outcome = (readGroup es g).outcome) : (read tree').outcome = (read tree).outcome := by
  have hpaired : (Group.all.mapM (fun g => do
        let nodes ← readGroup fs g
        return (g, nodes) : Group → Logged (Group × List Node))).outcome =
      (Group.all.mapM (fun g => do
        let nodes ← readGroup es g
        return (g, nodes) : Group → Logged (Group × List Node))).outcome := by
    refine Traced.outcome_mapM_congr (List.forall₂_same.2 fun g _ => ?_)
    simp only [Traced.outcome_bind, hgroups]
  unfold read
  rw [hes, hfs]
  simp only [Traced.outcome_bind, hkeys]
  refine bind_congr fun unknown => ?_
  split <;> simp only [Traced.outcome_bind, hpaired]

theorem readGroup_of_map {es named : Entries} {g : Group} (h : Entries.field es g.name = .map named) :
    readGroup es g = Node.ofList <$> named.mapM (readEntry g) := by
  obtain ⟨hrefused, hentries⟩ | hread := readGroup_eq es g
  · rw [groupEntries, h] at hentries
    rw [readGroup, h]
    simp only [show named = [] from hentries]
    rfl
  · rwa [groupEntries, h] at hread

theorem outcome_readGroup_congr {es fs : Entries} {h g : Group} {k v w : Value} {before after groups groups' : Entries}
    (hes : es = groups ++ entry g.name (.map (before ++ (k, v) :: after)) :: groups')
    (hfs : fs = groups ++ entry g.name (.map (before ++ (k, w) :: after)) :: groups')
    (hread : ∀ p, (Node.read w p).outcome = (Node.read v p).outcome) :
    (readGroup fs h).outcome = (readGroup es h).outcome := by
  subst hes hfs
  obtain ⟨-, hv, hw⟩ | hsame := Value.get?_replaced g.name h.name (.map (before ++ (k, v) :: after))
    (.map (before ++ (k, w) :: after)) groups' groups
  · have hstands {gs named : Entries} (hgs : Entries.get? gs (.text h.name) = some (.map named)) :
        Entries.field gs h.name = .map named := by
      rw [Entries.field, hgs]
      rfl
    have hentry : (readEntry h (k, w)).outcome = (readEntry h (k, v)).outcome := hread _
    rw [readGroup_of_map (hstands hv), readGroup_of_map (hstands hw), Traced.outcome_map, Traced.outcome_map]
    refine congrArg (Node.ofList <$> ·) (Traced.outcome_mapM_congr ?_)
    exact forall₂_replaced (P := fun e f => (readEntry h f).outcome = (readEntry h e).outcome) (fun _ => rfl) hentry _ _
  · rw [readGroup, readGroup, Entries.field, Entries.field, hsame]

theorem unwrap_of_group (groups groups' : Entries) (g : Group) (v : Value) :
    unwrap (.map (groups ++ entry g.name v :: groups')) = .map (groups ++ entry g.name v :: groups') := by
  refine unwrap_of_ne fun x heq => ?_
  have hmem : entry g.name v ∈ [entry "devices" x] := by
    change entry g.name v ∈ [(Value.text "devices", x)]
    rw [← Value.map.inj heq]
    exact List.mem_append_right _ List.mem_cons_self
  obtain ⟨hname, -⟩ := Prod.mk.inj (List.mem_singleton.1 hmem)
  exact absurd (Value.text.inj hname) (by cases g <;> decide)

theorem GroupsReordered.outcome_read (tree tree' : Value) (h : GroupsReordered (unwrap tree) (unwrap tree')) :
    (read tree').outcome = (read tree).outcome := by
  generalize hes : unwrap tree = v at h
  generalize hfs : unwrap tree' = w at h
  cases h with
  | groups h =>
    refine outcome_read_congr hes hfs (Node.unknownKeys_perm h.1) fun g => ?_
    rw [readGroup, readGroup, Entries.field, Entries.field, Value.get?_perm h]
  | node h g k before after groups groups' =>
    refine outcome_read_congr hes hfs (fun known => Node.unknownKeys_congr ?_ known) fun g' => ?_
    · simp [entry]
    · exact outcome_readGroup_congr rfl rfl fun p =>
        Node.read_rewritten Value.harmless_reordered h p fun hdeclared => by cases hdeclared

theorem Reordered.outcome_read {tree tree' : Value} (h : Reordered tree tree') :
    (read tree').outcome = (read tree).outcome := by
  cases h with
  | wrapped h => exact GroupsReordered.outcome_read (.map [entry "devices" _]) (.map [entry "devices" _]) h
  | bare h =>
    cases h with
    | @groups es fs h =>
      by_cases hwrapped : ∃ x, es = [entry "devices" x]
      · obtain ⟨x, rfl⟩ := hwrapped
        rw [List.perm_singleton.1 h.1.symm]
      · have hes : unwrap (.map es) = .map es := unwrap_of_ne fun x heq => hwrapped ⟨x, Value.map.inj heq⟩
        have hfs : unwrap (.map fs) = .map fs := unwrap_of_ne fun x heq =>
          hwrapped ⟨x, List.perm_singleton.1 (Value.map.inj heq ▸ h.1)⟩
        exact GroupsReordered.outcome_read _ _ (by rw [hes, hfs]; exact .groups h)
    | node h g k before after groups groups' =>
      exact GroupsReordered.outcome_read _ _ (by
        rw [unwrap_of_group, unwrap_of_group]
        exact .node h g k before after groups groups')

end Layout

/-- **The order of options and of groups does not matter**: however many mappings of nodes and of groups are in another
order, the same is compiled, or the same error is met. -/
theorem compile_reordered {tree tree' : Value} (h : Relation.ReflTransGen Layout.Reordered tree tree') (root : String) :
    (compile tree' root).outcome = (compile tree root).outcome := by
  induction h with
  | refl => rfl
  | tail _ hstep ih => rw [← ih, outcome_compile_eq, outcome_compile_eq, hstep.outcome_read]

/-- The groups, a disk and the filesystem in it in another order; the disk is compiled as before. -/
theorem compile_reordered_of_three_mappings :
    let pools : Value × Value := entry "zpool" (.map [])
    let content : Value := node "filesystem" [entry "format" (.text "ext4"), entry "mountpoint" (.text "/")]
    let content' : Value := .map [entry "mountpoint" (.text "/"), entry "type" (.text "filesystem"),
      entry "format" (.text "ext4")]
    let disk (es : Entries) : Value × Value := entry "disk" (.map [(.text "a", .map es)])
    let tree : Value := .map [pools, disk [entry "device" (.text "/dev/sda"), entry "content" content]]
    let tree' : Value := .map [disk [entry "content" content', entry "device" (.text "/dev/sda")], pools]
    Relation.ReflTransGen Layout.Reordered tree tree' ∧ (compile tree "/mnt").outcome.toOption.isSome = true ∧
      (compile tree' "/mnt").outcome = (compile tree "/mnt").outcome := by
  intro pools content content' disk tree tree'
  have hgroups {e f : Value × Value} (h : (Entries.names [e, f]).Nodup) : Layout.Reordered (.map [e, f]) (.map [f, e]) :=
    .bare (.groups ⟨List.Perm.swap f e [], h⟩)
  have hdisk {v w : Value} (h : Value.Rewritten (fun _ => Entries.Reordered) .implied v w) :
      Layout.Reordered (.map [pools, entry "disk" (.map [(.text "a", v)])])
        (.map [pools, entry "disk" (.map [(.text "a", w)])]) :=
    .bare (.node h .disk (.text "a") [] [] [pools] [])
  have hcontent : Value.Rewritten (fun _ => Entries.Reordered) .declared content content' :=
    .here ⟨by decide, by decide⟩
  have h : Relation.ReflTransGen Layout.Reordered tree tree' :=
    ((Relation.ReflTransGen.single (hdisk (.held .content hcontent [entry "device" (.text "/dev/sda")] []))).tail
      (hdisk (.here ⟨List.Perm.swap _ _ [], by decide⟩))).tail (hgroups (by decide))
  exact ⟨h, by decide +kernel, compile_reordered h "/mnt"⟩

end Provision
