import Mathlib.Data.List.Sort
import Mathlib.Data.String.Basic
import Provision.Proofs.Host.Grouping
import Provision.Proofs.Layout.Mountpoints
import Provision.Proofs.Mount.Table
/-!
# What is mounted before what

The mount script and the table of filesystems are both sorted by the texts of their mountpoints, character by character
(`mount_order_iff`).  A directory that lies under another, component by component, comes after it where no two slashes follow
one another (`Mountpoint.lt_of_isUnder`); elsewhere it may come before it.
-/
namespace Provision

open Value (Entries entry node)

namespace Mountpoint

/-- The components of a path: what stands between slashes, left out where it is empty. -/
def components (path : String) : List (List Char) := (path.toList.splitOn '/').filter (fun c => !c.isEmpty)

/-- Whether a path lies under another: the components of the other are a proper beginning of its own. -/
def IsUnder (path above : String) : Prop := components above <+: components path ∧ components above ≠ components path

instance (path above : String) : Decidable (IsUnder path above) := inferInstanceAs (Decidable (_ ∧ _))

def SingleSlashes (path : String) : Prop := ¬ ['/', '/'] <:+: path.toList

instance (path : String) : Decidable (SingleSlashes path) := inferInstanceAs (Decidable (¬ _))

theorem cons_intercalate (c : List Char) (cs : List (List Char)) :
    '/' :: ['/'].intercalate (c :: cs) = (c :: cs).flatMap ('/' :: ·) := by
  induction cs generalizing c with
  | nil => simp [List.intercalate]
  | cons d ds ih => rw [List.intercalate_cons_cons, List.flatMap_cons, ← ih]; simp

theorem exists_pieces {path : String} (h : Rooted path) :
    ∃ pieces : List (List Char), path.toList = pieces.flatMap ('/' :: ·) ∧
      components path = pieces.filter (fun c => !c.isEmpty) := by
  obtain ⟨tail, htail⟩ : ∃ tail, path.toList = '/' :: tail := List.head?_eq_some_iff.1 h
  have hpieces : ['/'].intercalate (tail.splitOn '/') = tail := List.intercalate_splitOn '/'
  refine ⟨tail.splitOn '/', ?_, ?_⟩
  · cases hsplit : tail.splitOn '/' with
    | nil => exact absurd hsplit (List.splitOn_ne_nil _ _)
    | cons c cs => rw [← cons_intercalate, ← hsplit, hpieces, htail]
  · rw [components, htail, List.splitOn_eq_splitOnP, List.splitOnP_cons_eq_if_modifyHead]
    simp [List.splitOn_eq_splitOnP]

theorem flatMap_pieces : ∀ pieces : List (List Char), ¬ ['/', '/'] <:+: pieces.flatMap ('/' :: ·) →
    ∃ tail, (tail = [] ∨ tail = ['/']) ∧
      pieces.flatMap ('/' :: ·) = (pieces.filter (fun c => !c.isEmpty)).flatMap ('/' :: ·) ++ tail
  | [], _ => ⟨[], .inl rfl, rfl⟩
  | [[]], _ => ⟨['/'], .inr rfl, rfl⟩
  | [c :: cs], _ => ⟨[], .inl rfl, by simp⟩
  | [] :: d :: ds, h => absurd ⟨[], d ++ ds.flatMap ('/' :: ·), by simp⟩ h
  | (c :: cs) :: d :: ds, h => by
    obtain ⟨tail, htail, hpieces⟩ := flatMap_pieces (d :: ds) (fun hin => h (hin.trans
      (List.suffix_append ('/' :: c :: cs) _).isInfix))
    refine ⟨tail, htail, ?_⟩
    rw [List.flatMap_cons, hpieces]
    simp

/-- **A directory comes before what lies under it**, where no two slashes follow one another. -/
theorem lt_of_isUnder {p q : String} (hp : Rooted p) (hq : Rooted q) (hp' : SingleSlashes p) (hq' : SingleSlashes q)
    (h : IsUnder q p) : p < q := by
  obtain ⟨ps, hps, hpc⟩ := exists_pieces hp
  obtain ⟨qs, hqs, hqc⟩ := exists_pieces hq
  obtain ⟨s, hs, hpe⟩ := flatMap_pieces ps (hps ▸ hp')
  obtain ⟨t, -, hqe⟩ := flatMap_pieces qs (hqs ▸ hq')
  obtain ⟨⟨more, hmore⟩, hne⟩ := h
  rw [← hps, ← hpc] at hpe
  rw [← hqs, ← hqc, ← hmore] at hqe
  rw [String.lt_iff, hpe, hqe]
  cases more with
  | nil => exact absurd (by simpa using hmore) hne
  | cons c cs =>
    have hc : c ≠ [] := by
      have hmem : c ∈ components q := hmore ▸ List.mem_append_right _ List.mem_cons_self
      rw [hqc] at hmem
      simpa using (List.mem_filter.1 hmem).2
    obtain ⟨x, xs, rfl⟩ := List.exists_cons_of_ne_nil hc
    rw [List.flatMap_append, List.append_assoc]
    refine List.append_left_lt ?_
    obtain rfl | rfl := hs
    · exact List.nil_lt_cons _ _
    · rw [List.flatMap_cons, List.cons_append, List.cons_append, List.cons_append, List.cons_lt_cons_self]
      exact List.nil_lt_cons _ _

end Mountpoint

section Sorted

variable {α : Type}

theorem pair_sublist_iff_lt {κ : Type} [LinearOrder κ] {es : List (κ × α)} (hsorted : es.Pairwise (fun a b => a.1 ≤ b.1))
    (hnodup : (es.map Prod.fst).Nodup) {a b : κ × α} (ha : a ∈ es) (hb : b ∈ es) : [a, b].Sublist es ↔ a.1 < b.1 := by
  have hlt : es.Pairwise (fun a b => a.1 < b.1) :=
    hsorted.imp₂ (fun _ _ hle hne => lt_of_le_of_ne hle hne) (List.pairwise_map.1 hnodup)
  constructor
  · intro h
    exact (List.pairwise_cons.1 (hlt.sublist h)).1 b List.mem_cons_self
  · intro h
    obtain ⟨xs, ys, rfl⟩ := List.append_of_mem ha
    rcases List.mem_append.1 hb with hb | hb
    · exact absurd h (lt_asymm ((List.pairwise_append.1 hlt).2.2 b hb a List.mem_cons_self))
    · rcases List.mem_cons.1 hb with rfl | hb
      · exact absurd h (lt_irrefl _)
      · exact ((List.singleton_sublist.2 hb).cons_cons a).trans (List.sublist_append_right xs _)

theorem exists_text_of_pair_sublist {l : List α} {a b : α} (h : [a, b].Sublist l) (text : α → String) (head tail : String) :
    ∃ before between after, head ++ String.join (l.map text) ++ tail = before ++ text a ++ between ++ text b ++ after := by
  obtain ⟨xs, ys, rfl, ha, hb⟩ := List.cons_sublist_iff.1 h
  obtain ⟨xs, xs', rfl⟩ := List.append_of_mem ha
  obtain ⟨ys, ys', rfl⟩ := List.append_of_mem (List.singleton_sublist.1 hb)
  refine ⟨head ++ String.join (xs.map text), String.join (xs'.map text) ++ String.join (ys.map text),
    String.join (ys'.map text) ++ tail, ?_⟩
  simp [String.join_append, String.join_cons, String.append_assoc]

end Sorted

namespace ByPath

variable {μ : Type}

theorem pairwise_sorted (ms : ByPath μ) : ms.sorted.Pairwise (fun a b => a.1 ≤ b.1) := by
  have h : ms.sorted.Pairwise (fun a b => decide (a.1 ≤ b.1) = true) := by
    refine List.pairwise_mergeSort (fun a b c hab hbc => ?_) (fun a b => ?_) ms
    · simp only [decide_eq_true_eq] at hab hbc ⊢
      exact le_trans hab hbc
    · simp only [Bool.or_eq_true, decide_eq_true_eq]
      exact le_total a.1 b.1
  exact h.imp of_decide_eq_true

theorem map_fst_sorted (ms : ByPath μ) : ms.sorted.map Prod.fst = (ms.map Prod.fst).mergeSort (fun p q => p ≤ q) :=
  List.map_mergeSort (fun _ _ _ _ => rfl)

theorem perm_sorted (ms : ByPath μ) : ms.sorted.Perm ms := List.mergeSort_perm ms _

/-- **Of two paths the smaller text comes first** in a sorted table that has every path once. -/
theorem pair_sublist_sorted_iff {ms : ByPath μ} (h : (ms.map Prod.fst).Nodup) {a b : String × μ} (ha : a ∈ ms)
    (hb : b ∈ ms) : [a, b].Sublist ms.sorted ↔ a.1 < b.1 :=
  pair_sublist_iff_lt ms.pairwise_sorted ((ms.perm_sorted.map _).nodup_iff.2 h) (ms.perm_sorted.mem_iff.2 ha)
    (ms.perm_sorted.mem_iff.2 hb)

end ByPath

namespace HostConfig

def IsTable (c : HostConfig) (es : ByPath FileSystem) : Prop :=
  c.fileSystems = es.map (fun e => (.text e.1, e.2)) ∧ (es.map Prod.fst).Nodup

theorem get?_text (es : ByPath FileSystem) (path : String) :
    Entries.get? (es.map (fun e => (.text e.1, e.2))) (.text path) = es.get? path := by
  induction es with
  | nil => rfl
  | cons e es ih =>
    by_cases he : e.1 = path
    · simp [Entries.get?, ByPath.get?, Value.same_text_iff, he]
    · simpa [Entries.get?, ByPath.get?, Value.same_text_iff, he] using ih

theorem sortedFileSystems_of_isTable {c : HostConfig} {es : ByPath FileSystem} (h : c.IsTable es) :
    c.sortedFileSystems = .ok (es.sorted.map (fun e => (.text e.1, e.2))) := by
  have hsortable : Value.areSortable (c.fileSystems.map (·.1)) = true := by
    rw [h.1]
    cases es with
    | nil => rfl
    | cons e es =>
      cases es with
      | nil => rfl
      | cons d ds => simp [Value.areSortable, Value.orderClass]
  rw [sortedFileSystems, if_pos hsortable, h.1, ByPath.sorted, List.map_mergeSort]
  intro a _ b _
  simp [Value.less, ← not_lt]

/-- **The rendered table of filesystems, in its order**: a line for each, sorted by the texts of the mountpoints. -/
theorem fstab_of_isTable {c : HostConfig} {es : ByPath FileSystem} (hes : c.IsTable es) {text : String}
    (h : c.fstab.outcome = .ok text) : ∃ line : String × FileSystem → String,
      (∀ e ∈ es, fileSystemLine (.text e.1, e.2) = .ok (line e)) ∧
      text = fstabHeader ++ String.join (es.sorted.map line) ++ String.join (c.swapDevices.map swapLine) := by
  obtain ⟨es', lines, hsorted, hlines, -, htext⟩ := fstab_lines h
  obtain rfl := Except.ok.inj (hsorted.symm.trans (sortedFileSystems_of_isTable hes))
  have hline := List.forall₂_map_left_iff.1 hlines
  let line (e : String × FileSystem) : String := (fileSystemLine (.text e.1, e.2)).toOption.getD ""
  have hsame : es.sorted.map line = lines := by
    rw [← List.forall₂_eq_eq_eq, List.forall₂_map_left_iff]
    exact hline.imp (fun e l he => by simp [line, he, Except.toOption])
  refine ⟨line, fun e he => ?_, by rw [hsame, htext]⟩
  obtain ⟨l, hl⟩ := exists_of_except_mapM (except_mapM_eq_ok_iff.2 hline) (es.perm_sorted.mem_iff.2 he)
  simp [line, hl, Except.toOption]

theorem exists_fstab_iff {c : HostConfig} {es : ByPath FileSystem} (hes : c.IsTable es) :
    (∃ text, c.fstab.outcome = .ok text) ↔ (∀ e ∈ es, ∃ line, fileSystemLine (.text e.1, e.2) = .ok line) ∧
      ∀ s ∈ c.swapDevices, s.device.isWritable = true := by
  constructor
  · rintro ⟨text, h⟩
    obtain ⟨line, hline, -⟩ := fstab_of_isTable hes h
    obtain ⟨-, -, -, -, hswaps, -⟩ := fstab_lines h
    exact ⟨fun e he => ⟨_, hline e he⟩, hswaps⟩
  · rintro ⟨h, hswaps⟩
    obtain ⟨lines, hlines⟩ := exists_except_mapM (f := fileSystemLine)
      (fun x hx => by
        obtain ⟨e, he, rfl⟩ := List.mem_map.1 hx
        exact h e (es.perm_sorted.mem_iff.1 he))
    rw [fstab]
    refine ⟨_, Traced.outcome_bind_eq_ok_iff.2 ⟨_, sortedFileSystems_of_isTable hes, Traced.outcome_bind_eq_ok_iff.2
      ⟨lines, hlines, Traced.outcome_bind_eq_ok_iff.2
        ⟨_, (Traced.exists_outcome_mapM fun s hs => ⟨swapLine s, renderSwap_eq_ok_iff.2 ⟨hswaps s hs, rfl⟩⟩).choose_spec,
          rfl⟩⟩⟩⟩

end HostConfig

namespace Layout

theorem isTable_of_ofFacts {l : Layout} (hl : l.WellFormed) {facts : List Fact} (hfacts : l.facts = .ok facts)
    {config : HostConfig} (hconfig : HostConfig.ofFacts facts = .ok config) : config.IsTable (Fact.fileSystems facts) :=
  ⟨(ofFacts_ok hl hfacts hconfig).1, (ByPath.holdsLast_lastOf _).nodup⟩

/-- A swap device that the mount script enables has a path, and so a line of the table. -/
theorem isWritable_of_mem_swapDevices {l : Layout} (hl : l.WellFormed) {root : String} {order : List DeviceRef}
    (hperm : (l.inOrder order).Perm l.devices) {f : MountFragment} (hf : (l.mountFragment root order).outcome = .ok f)
    {facts : List Fact} (hfacts : l.facts = .ok facts) {config : HostConfig}
    (hconfig : HostConfig.ofFacts facts = .ok config)
    {s : SwapDevice} (hs : s ∈ config.swapDevices) : s.device.isWritable = true := by
  rw [(ofFacts_ok hl hfacts hconfig).2.1] at hs
  obtain ⟨fact, hfact, hs⟩ := List.mem_filterMap.1 hs
  cases fact with
  | swap device random =>
    obtain rfl := Option.some.inj hs
    obtain ⟨d, hd, hfact⟩ := List.mem_flatMap.1 ((facts_ok hl hfacts root).1.mem_iff.1 hfact)
    obtain ⟨v, hv, hfact⟩ := List.mem_flatMap.1 hfact
    obtain ⟨-, -, hmounting⟩ := mountFragment_ok hf
    obtain ⟨path, rfl⟩ := Visit.text_of_swap_mem_facts (hmounting d (hperm.mem_iff.2 hd) v hv) hfact
    rfl
  | _ => cases hs

end Layout

namespace Spec

theorem rooted_of_mounting {spec : Spec} {ctx : Context} {path : String} {m : Mounting} {source : Value}
    (hspec : ∀ p ∈ spec.mountpoints, Rooted p) (h : spec.mounting ctx = .ok (some (path, m)))
    (hm : m.source? = some source) : Rooted path := by
  cases spec
  case filesystem | nodev =>
    cases h
    exact hspec _ List.mem_cons_self
  case subvolume name extraArgs mountOptions mountpoint =>
    obtain ⟨place, hplace, h⟩ := except_bind_eq_ok_iff.1 h
    obtain ⟨place, rfl, h⟩ := Option.map_eq_some_iff.1 (Except.ok.inj h)
    cases h
    unfold subvolumeMountpoint at hplace
    split at hplace
    · cases hplace
      exact hspec _ (by simp [mountpoints])
    · cases hplace
    · -- a subvolume without a mountpoint is mounted below the root by its name
      obtain ⟨name, -, hplace⟩ := except_bind_eq_ok_iff.1 hplace
      cases hplace
      simp [Rooted]
  case btrfs | pool =>
    obtain ⟨place, rfl, h⟩ := Option.map_eq_some_iff.1 (Except.ok.inj h)
    cases h
    exact hspec _ (by simp [mountpoints])
  case dataset name type options mountOptions mountpoint size =>
    obtain ⟨place, hplace, h⟩ := Option.map_eq_some_iff.1 (Except.ok.inj h)
    cases h
    unfold datasetMountpoint at hplace
    split at hplace
    · cases hplace
    · split at hplace
      · cases hplace
      · subst hplace
        exact hspec _ (by simp [mountpoints])
  case swap =>
    obtain ⟨device, -, h⟩ := except_bind_eq_ok_iff.1 h
    cases h
    cases hm
  all_goals cases h

end Spec

def Fragment.mountpoints (f : MountFragment) : List String := (f.mounts.filter (·.2.source?.isSome)).map Prod.fst

namespace Fragment

variable {f : MountFragment}

theorem exists_get?_of_mem_mountpoints (h : (f.mounts.map Prod.fst).Nodup) {p : String} (hp : p ∈ f.mountpoints) :
    ∃ m source, f.mounts.get? p = some m ∧ m.source? = some source := by
  obtain ⟨⟨p, m⟩, hm, rfl⟩ := List.mem_map.1 hp
  obtain ⟨hm, hsome⟩ := List.mem_filter.1 hm
  obtain ⟨source, hsource⟩ := Option.isSome_iff_exists.1 hsome
  exact ⟨m, source, ByPath.get?_of_mem h hm, hsource⟩

theorem rooted_of_mem_mountpoints {tree : Value} {l : Layout} (hl : (Layout.read tree).outcome = .ok l) {root : String}
    {order : List DeviceRef} (hperm : (l.inOrder order).Perm l.devices)
    (hf : (l.mountFragment root order).outcome = .ok f) {p : String} (hp : p ∈ f.mountpoints) : Rooted p := by
  obtain ⟨-, hmounts, hmounting⟩ := Layout.mountFragment_ok hf
  obtain ⟨m, source, hm, hsource⟩ := exists_get?_of_mem_mountpoints hmounts.nodup hp
  rw [hmounts.get?] at hm
  obtain ⟨d, hd, he⟩ := List.mem_flatMap.1 (ByPath.mem_of_lastAt? hm)
  obtain ⟨v, hv, hentry⟩ := Device.mem_mountings_iff.1 he
  have hnode : v.node ∈ l.nodes :=
    Layout.mem_nodes_iff.2 ⟨d, hperm.mem_iff.1 hd, Node.node_mem_subnodes d.node _ v hv⟩
  exact Spec.rooted_of_mounting (Layout.rooted_of_read hl v.node hnode)
    ((hmounting d hd v hv).trans (congrArg Except.ok hentry)) hsource

end Fragment

/-- **What is mounted before what.**  The mounts of the mount script, and the filesystems of the rendered table of the
host, which has a line for every mountpoint of the script, stand in the order of the texts of their paths.  So a
directory comes before what lies under it where no two slashes follow one another. -/
theorem mount_order_iff {tree : Value} {root : String} {c : Compiled} (h : (compile tree root).outcome = .ok c) :
    ∃ l f, (Layout.read tree).outcome = .ok l ∧ (l.mountFragment root c.order).outcome = .ok f ∧
      c.mountScript = Layout.mountText f ∧
      (∀ a ∈ f.mounts, ∀ b ∈ f.mounts, ([a, b].Sublist f.mounts.sorted ↔ a.1 < b.1) ∧
        (a.1 < b.1 → ∃ before between after, c.mountScript = before ++ a.2.script ++ between ++ b.2.script ++ after)) ∧
      (∀ config, HostConfig.ofFacts c.facts = .ok config → ∃ es, config.IsTable es ∧ f.mountpoints ⊆ es.map Prod.fst ∧
        ((∃ text, config.fstab.outcome = .ok text) ↔
          ∀ e ∈ es, ∃ line, HostConfig.fileSystemLine (.text e.1, e.2) = .ok line) ∧
        ∀ text, config.fstab.outcome = .ok text → ∃ line,
          (∀ e ∈ es, HostConfig.fileSystemLine (.text e.1, e.2) = .ok (line e)) ∧
          text = HostConfig.fstabHeader ++ String.join (es.sorted.map line) ++
            String.join (config.swapDevices.map HostConfig.swapLine) ∧
          ∀ a ∈ es, ∀ b ∈ es, ([a, b].Sublist es.sorted ↔ a.1 < b.1) ∧
            (a.1 < b.1 → ∃ before between after, text = before ++ line a ++ between ++ line b ++ after)) ∧
      ∀ p ∈ f.mountpoints, ∀ q ∈ f.mountpoints, Mountpoint.SingleSlashes p → Mountpoint.SingleSlashes q →
        Mountpoint.IsUnder q p → p < q := by
  obtain ⟨l, hl, -, hs, -, -⟩ := compile_ok h
  have hwell := Layout.wellFormed_of_read hl
  have hperm := hwell.perm_inOrder (Order.perm_of_sort hwell.nodup (Requirement.sort_eq_ok hs))
  obtain ⟨f, hf, hscript, hfacts⟩ := compile_mounts h hl
  obtain ⟨-, hmounts, -⟩ := Layout.mountFragment_ok hf
  obtain ⟨-, hmounted, -⟩ := Layout.facts_ok hwell hfacts root
  have hrooted {p : String} (hp : p ∈ f.mountpoints) : Rooted p := Fragment.rooted_of_mem_mountpoints hl hperm hf hp
  refine ⟨l, f, hl, hf, hscript, fun a ha b hb => ?_, fun config hconfig => ?_, fun p hp q hq hp' hq' hunder =>
    Mountpoint.lt_of_isUnder (hrooted hp) (hrooted hq) hp' hq' hunder⟩
  · have hiff := ByPath.pair_sublist_sorted_iff hmounts.nodup ha hb
    refine ⟨hiff, fun hlt => ?_⟩
    have hsplit := exists_text_of_pair_sublist (hiff.2 hlt) (fun m => m.2.script)
      (Layout.mountPreamble ++ "# activate devices\n" ++ activationText f.activation ++ "\n# mount filesystems\n") ""
    rw [String.append_empty] at hsplit
    rwa [hscript, Layout.mountText]
  · have hes := Layout.isTable_of_ofFacts hwell hfacts hconfig
    have hswaps (s : SwapDevice) (hs : s ∈ config.swapDevices) : s.device.isWritable = true :=
      Layout.isWritable_of_mem_swapDevices hwell hperm hf hfacts hconfig hs
    refine ⟨_, hes, fun p hp => ?_, (HostConfig.exists_fstab_iff hes).trans (and_iff_left hswaps), fun text htext => ?_⟩
    · -- what the script mounts is configured
      obtain ⟨m, source, hm, hsource⟩ := Fragment.exists_get?_of_mem_mountpoints hmounts.nodup hp
      have hconfigured := (mounted_eq_configured_of_perm hperm root p).1
      rw [← hmounts.get?, hm, Option.bind_some, hsource, ← hmounted, ← HostConfig.deviceAt?_ofFacts hconfig,
        HostConfig.deviceAt?, hes.1, HostConfig.get?_text, Option.isSome_map] at hconfigured
      obtain ⟨fs, hfs⟩ := Option.isSome_iff_exists.1 (hconfigured rfl)
      exact List.mem_map_of_mem (ByPath.mem_of_get? hfs)
    · obtain ⟨line, hline, htable⟩ := HostConfig.fstab_of_isTable hes htext
      refine ⟨line, hline, htable, fun a ha b hb => ?_⟩
      have hiff := ByPath.pair_sublist_sorted_iff hes.2 ha hb
      refine ⟨hiff, fun hlt => ?_⟩
      rw [htable]
      exact exists_text_of_pair_sublist (hiff.2 hlt) _ _ _

/-- Two slashes at the beginning: what lies under a directory is mounted before it, and listed before it. -/
theorem nested_before_of_two_slashes :
    let tree : Value := .map [entry "nodev" (.map [entry "/a" (node "nodev" [entry "fsType" (.text "tmpfs")]),
      entry "//a/b" (node "nodev" [entry "fsType" (.text "tmpfs")])])]
    Mountpoint.IsUnder "//a/b" "/a" ∧
    ∃ c l f config es text, (compile tree "/mnt").outcome = .ok c ∧ (Layout.read tree).outcome = .ok l ∧
      (l.mountFragment "/mnt" c.order).outcome = .ok f ∧ c.mountScript = Layout.mountText f ∧
      f.mounts.sorted.map Prod.fst = ["//a/b", "/a"] ∧
      HostConfig.ofFacts c.facts = .ok config ∧ config.fstab.outcome = .ok text ∧
      config.sortedFileSystems = .ok es ∧ es.map (fun e => e.1.toText) = ["//a/b", "/a"] := by
  intro tree
  have hsorted : ["/a", "//a/b"].mergeSort (fun p q => p ≤ q) = ["//a/b", "/a"] := by
    simp [List.mergeSort, show ¬ "/a" ≤ "//a/b" by decide +kernel]
  have hchecked : (compile tree "/mnt").outcome.toOption.bind (fun c => (Layout.read tree).outcome.toOption.bind (fun l =>
      (l.mountFragment "/mnt" c.order).outcome.toOption.bind (fun f =>
      (HostConfig.ofFacts c.facts).toOption.map (fun config =>
        (f.mounts.map Prod.fst, config.fileSystems.map (fun e => e.1.toText),
          config.fileSystems.all (fun e => (HostConfig.fileSystemLine e).toOption.isSome),
          config.swapDevices.isEmpty))))) = some (["/a", "//a/b"], ["/a", "//a/b"], true, true) := by decide +kernel
  obtain ⟨c, hc, hchecked⟩ := Option.bind_eq_some_iff.1 hchecked
  obtain ⟨l, hl, hchecked⟩ := Option.bind_eq_some_iff.1 hchecked
  obtain ⟨f, hf, hchecked⟩ := Option.bind_eq_some_iff.1 hchecked
  obtain ⟨config, hconfig, hchecked⟩ := Option.map_eq_some_iff.1 hchecked
  simp only [Prod.mk.injEq] at hchecked
  obtain ⟨hmounts, hlisted, hlines, hnoswap⟩ := hchecked
  replace hc := eq_ok_of_toOption hc
  replace hl := eq_ok_of_toOption hl
  replace hconfig := eq_ok_of_toOption hconfig
  obtain ⟨f', hf', hscript, hfacts⟩ := compile_mounts hc hl
  obtain rfl : f' = f := Except.ok.inj (hf'.symm.trans (eq_ok_of_toOption hf))
  have hes := Layout.isTable_of_ofFacts (Layout.wellFormed_of_read hl) hfacts hconfig
  rw [hes.1, List.map_map] at hlisted
  rw [hes.1, List.all_map, List.all_eq_true] at hlines
  obtain ⟨text, htext⟩ := (HostConfig.exists_fstab_iff hes).2 ⟨fun e he =>
    (Option.isSome_iff_exists.1 (hlines e he)).imp (fun _ => eq_ok_of_toOption),
    by simp [List.isEmpty_iff.1 hnoswap]⟩
  refine ⟨by decide +kernel, c, l, f', config, _, text, hc, hl, hf', hscript, ?_, hconfig, htext,
    HostConfig.sortedFileSystems_of_isTable hes, ?_⟩
  · rw [ByPath.map_fst_sorted, hmounts, hsorted]
  · rw [List.map_map]
    exact (ByPath.map_fst_sorted _).trans ((congrArg (List.mergeSort · _) hlisted).trans hsorted)

/-- A directory that is listed before the one it lies under, whose path ends with a slash. -/
theorem mount_order_of_nested_directories :
    let tree : Value := .map [
      entry "disk" (.map [entry "a" (node "disk" [entry "device" (.text "/dev/sda"),
        entry "content" (node "filesystem" [entry "format" (.text "ext4"), entry "mountpoint" (.text "/srv/data")])])]),
      entry "nodev" (.map [entry "/srv/" (node "nodev" [entry "fsType" (.text "tmpfs")])])]
    ∃ c l f config text, (compile tree "/mnt").outcome = .ok c ∧ (Layout.read tree).outcome = .ok l ∧
      (l.mountFragment "/mnt" c.order).outcome = .ok f ∧ c.mountScript = Layout.mountText f ∧
      f.mountpoints = ["/srv/data", "/srv/"] ∧ ["/srv/", "/srv/data"].Sublist (f.mounts.sorted.map Prod.fst) ∧
      HostConfig.ofFacts c.facts = .ok config ∧ config.fstab.outcome = .ok text ∧
      ∃ es, config.IsTable es ∧ ["/srv/", "/srv/data"].Sublist (es.sorted.map Prod.fst) := by
  intro tree
  have hchecked : (compile tree "/mnt").outcome.toOption.bind (fun c => (Layout.read tree).outcome.toOption.bind (fun l =>
      (l.mountFragment "/mnt" c.order).outcome.toOption.bind (fun f =>
      (HostConfig.ofFacts c.facts).toOption.map (fun config =>
        (f.mountpoints, config.fileSystems.all (fun e => (HostConfig.fileSystemLine e).toOption.isSome)))))) =
      some (["/srv/data", "/srv/"], true) := by decide +kernel
  obtain ⟨c, hc, hchecked⟩ := Option.bind_eq_some_iff.1 hchecked
  obtain ⟨l, hl, hchecked⟩ := Option.bind_eq_some_iff.1 hchecked
  obtain ⟨f, hf, hchecked⟩ := Option.bind_eq_some_iff.1 hchecked
  obtain ⟨config, hconfig, hchecked⟩ := Option.map_eq_some_iff.1 hchecked
  simp only [Prod.mk.injEq] at hchecked
  obtain ⟨hmountpoints, hlines⟩ := hchecked
  replace hc := eq_ok_of_toOption hc
  replace hconfig := eq_ok_of_toOption hconfig
  obtain ⟨l', f', hl', hf', hscript, hmounts, htables, hnested⟩ := mount_order_iff hc
  cases (eq_ok_of_toOption hl).symm.trans hl'
  cases (eq_ok_of_toOption hf).symm.trans hf'
  obtain ⟨es, hes, hlisted, hrendered, hlines'⟩ := htables config hconfig
  have hp : "/srv/" ∈ f.mountpoints := hmountpoints ▸ by simp
  have hq : "/srv/data" ∈ f.mountpoints := hmountpoints ▸ by simp
  have hlt : "/srv/" < "/srv/data" := hnested _ hp _ hq (by decide +kernel) (by decide +kernel) (by decide +kernel)
  rw [hes.1, List.all_map, List.all_eq_true] at hlines
  obtain ⟨text, htext⟩ := hrendered.2 (fun e he =>
    (Option.isSome_iff_exists.1 (hlines e he)).imp (fun _ => eq_ok_of_toOption))
  obtain ⟨line, -, -, horder⟩ := hlines' text htext
  refine ⟨c, l, f, config, text, hc, hl', hf', hscript, hmountpoints, ?_, hconfig, htext, es, hes, ?_⟩
  · obtain ⟨a, ha, hpath⟩ := List.mem_map.1 hp
    obtain ⟨b, hb, hpath'⟩ := List.mem_map.1 hq
    have hfirst := (hmounts a (List.mem_filter.1 ha).1 b (List.mem_filter.1 hb).1).1.2 (by rw [hpath, hpath']; exact hlt)
    simpa [hpath, hpath'] using hfirst.map Prod.fst
  · obtain ⟨a, ha, hpath⟩ := List.mem_map.1 (hlisted hp)
    obtain ⟨b, hb, hpath'⟩ := List.mem_map.1 (hlisted hq)
    have hfirst := (horder a ha b hb).1.2 (by rw [hpath, hpath']; exact hlt)
    simpa [hpath, hpath'] using hfirst.map Prod.fst

end Provision
