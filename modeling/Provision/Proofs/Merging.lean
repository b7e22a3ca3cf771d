import Mathlib.Tactic.Tauto
import Provision.Proofs.Dependencies
import Provision.Proofs.Value.Shape
import Provision.Value.Identity
/-!
# In which portions metadata is merged

Merging puts keys together and joins what stands under common keys (`keys_merge`, `get?_merge`).  Where the shapes of
mappings agree, that is where what stands at one path of keys is always a mapping, always a list or always neither,
joining is the same at every depth (`at?_join`), so shapes still agree after a merge, and merging is associative
(`join_assoc`).  Without this it is not: a value that replaces a mapping forgets what was in it.  It follows that
mappings may be merged in any portions (`mergeAll_append`), and that the metadata of a layout is one whether it is
merged at every node or only over its devices.
-/
namespace Provision

namespace Metadata

open Value (Entries AreKeys adjoin adjoin_assoc isKeyed_map_iff isKeyed_of_get? Alike shape_eq_mapping_iff shape_eq_list_iff)
open Value.Entries (keys get?)

/-! ### What merging does to keys and to look-ups -/

variable {a b c base update : Entries}

theorem keys_merge (h : AreKeys (keys update)) : keys (merge base update) = adjoin (keys base) (keys update) := by
  induction update generalizing base with
  | nil => rw [merge_nil, Value.Entries.keys_nil, Value.adjoin_nil]
  | cons e rest ih =>
    obtain ⟨k, v⟩ := e
    obtain ⟨⟨hk, hnew⟩, hrest⟩ := Value.areKeys_cons_iff.1 h
    have hcons : adjoin [k] (keys rest) = k :: keys rest := by
      refine congrArg (k :: ·) (List.filter_eq_self.2 (fun l hl => ?_))
      rw [List.any_cons, List.any_nil, ← Value.same_comm_of_isKey hk, hnew l hl]
      rfl
    rw [merge, ih hrest, Value.Entries.keys_put, adjoin_assoc, hcons]
    rfl

theorem areKeys_merge (hbase : AreKeys (keys base)) (hupdate : AreKeys (keys update)) :
    AreKeys (keys (merge base update)) := by
  rw [keys_merge hupdate]
  exact hbase.adjoin hupdate

/-- **What stands under a common key is joined**, and what stands under other keys is kept. -/
theorem get?_merge (hbase : AreKeys (keys base)) (hupdate : AreKeys (keys update)) (l : Value) :
    get? (merge base update) l = (get? base l).merge join (get? update l) := by
  induction update generalizing base with
  | nil => rw [merge_nil, Value.Entries.get?_nil, Option.merge_none_right]
  | cons e rest ih =>
    obtain ⟨k, v⟩ := e
    obtain ⟨⟨hk, hnew⟩, hrest⟩ := Value.areKeys_cons_iff.1 hupdate
    rw [merge, ih (Value.Entries.areKeys_put hbase hk _) hrest, Value.Entries.get?_put hbase hk, Value.Entries.get?_cons]
    split
    case isTrue hlk =>
      have hkl : Value.same k l = true := by rwa [Value.same_comm_of_isKey hk]
      have hnone : get? rest l = none := by
        rw [Value.Entries.get?_eq_none_iff, List.any_eq_false]
        intro j hj
        rw [← Value.same_congr hk hkl, hnew j hj]
        exact Bool.false_ne_true
      rw [hnone, Option.merge_none_right, ← Value.Entries.get?_congr hk hkl]
      cases get? base k <;> rfl
    case isFalse => rfl

theorem join_of_other {v w : Value} (h : w.shape = .other) : join v w = w := by
  cases w <;> cases v <;> first | rfl | cases h

theorem shape_join {v w : Value} (h : v.shape = w.shape) : (join v w).shape = v.shape := by
  cases hw : w.shape with
  | mapping =>
    obtain ⟨es, rfl⟩ := shape_eq_mapping_iff.1 (h.trans hw)
    obtain ⟨fs, rfl⟩ := shape_eq_mapping_iff.1 hw
    rfl
  | list =>
    obtain ⟨xs, rfl⟩ := shape_eq_list_iff.1 (h.trans hw)
    obtain ⟨ys, rfl⟩ := shape_eq_list_iff.1 hw
    rfl
  | other => rw [join_of_other hw, h]

theorem isKeyed_join {v : Value} : ∀ {w : Value}, Alike v w → v.isKeyed = true → w.isKeyed = true →
    (join v w).isKeyed = true := by
  induction v using Value.induction_get? with
  | mapping a ih =>
    intro w h ha hw
    obtain ⟨b, rfl⟩ := shape_eq_mapping_iff.1 h.shape_eq.symm
    have hakeys := (isKeyed_map_iff.1 ha).1
    have hbkeys := (isKeyed_map_iff.1 hw).1
    have hkeys := areKeys_merge hakeys hbkeys
    rw [join]
    refine isKeyed_map_iff.2 ⟨hkeys, fun e he => ?_⟩
    have hget := Value.Entries.get?_of_mem hkeys he
    rw [get?_merge hakeys hbkeys] at hget
    obtain ⟨hx, -⟩ | ⟨-, hy⟩ | ⟨x, y, hx, hy, hxy⟩ := Option.merge_eq_some_iff.1 hget
    · exact isKeyed_of_get? ha hx
    · exact isKeyed_of_get? hw hy
    · rw [← hxy]
      exact ih _ x hx (h.of_get? hx hy) (isKeyed_of_get? ha hx) (isKeyed_of_get? hw hy)
  | list xs =>
    intro w h _ _
    obtain ⟨ys, rfl⟩ := shape_eq_list_iff.1 h.shape_eq.symm
    rfl
  | other v hv =>
    intro w h _ hw
    rwa [join_of_other (h.shape_eq.symm.trans hv)]

/-- **Joining values whose shapes agree is the same at every depth.** -/
theorem at?_join (path : List Value) : ∀ {v w : Value}, Alike v w → v.isKeyed = true → w.isKeyed = true →
    (join v w).at? path = (v.at? path).merge join (w.at? path) := by
  induction path with
  | nil =>
    intro v w _ _ _
    rw [Value.at?, Value.at?, Value.at?, Option.merge_some_some]
  | cons k path ih =>
    intro v w h hv hw
    by_cases hmap : v.shape = .mapping
    · obtain ⟨a, rfl⟩ := shape_eq_mapping_iff.1 hmap
      obtain ⟨b, rfl⟩ := shape_eq_mapping_iff.1 (h.shape_eq.symm.trans hmap)
      rw [join, Value.at?, Value.at?, Value.at?, get?_merge (isKeyed_map_iff.1 hv).1 (isKeyed_map_iff.1 hw).1]
      cases hx : get? a k with
      | none => rw [Option.merge_none_left, Option.bind_none, Option.merge_none_left]
      | some x =>
        cases hy : get? b k with
        | none => rw [Option.merge_none_right, Option.bind_none, Option.merge_none_right]
        | some y => exact ih (h.of_get? hx hy) (isKeyed_of_get? hv hx) (isKeyed_of_get? hw hy)
    · have hjoin : (join v w).shape ≠ .mapping := by rwa [shape_join h.shape_eq]
      rw [Value.at?_cons_of_ne hjoin, Value.at?_cons_of_ne hmap, Value.at?_cons_of_ne (h.shape_eq ▸ hmap),
        Option.merge_none_left]

theorem alike_join {u v w : Value} (hu : u.isKeyed = true) (hv : v.isKeyed = true) (huv : Alike u v) (huw : Alike u w)
    (hvw : Alike v w) : Alike (join u v) w := by
  intro path x y hx hy
  rw [at?_join path huv hu hv] at hx
  obtain ⟨hx, -⟩ | ⟨-, hx⟩ | ⟨x₁, x₂, hx₁, hx₂, rfl⟩ := Option.merge_eq_some_iff.1 hx
  · exact huw path x y hx hy
  · exact hvw path x y hx hy
  · rw [shape_join (huv path x₁ x₂ hx₁ hx₂)]
    exact huw path x₁ y hx₁ hy

/-- Merging is associative where joining what stands under a common key is. -/
theorem merge_assoc_of_get? (ha : AreKeys (keys a)) (hb : AreKeys (keys b)) (hc : AreKeys (keys c))
    (h : ∀ k u v w, get? a k = some u → get? b k = some v → get? c k = some w →
      join (join u v) w = join u (join v w)) : merge (merge a b) c = merge a (merge b c) := by
  have hab := areKeys_merge ha hb
  have hbc := areKeys_merge hb hc
  refine Value.Entries.ext_of_get? (areKeys_merge hab hc) ?_ (fun k _ => ?_)
  · rw [keys_merge hc, keys_merge hb, keys_merge hbc, keys_merge hc, adjoin_assoc]
  · rw [get?_merge hab hc, get?_merge ha hb, get?_merge ha hbc, get?_merge hb hc]
    -- only where all three have something there is anything to show
    cases hu : get? a k with
    | none => rw [Option.merge_none_left, Option.merge_none_left]
    | some u =>
      cases hv : get? b k with
      | none => rw [Option.merge_none_right, Option.merge_none_left]
      | some v =>
        cases hw : get? c k with
        | none => rw [Option.merge_none_right, Option.merge_none_right]
        | some w => exact congrArg some (h k u v w hu hv hw)

/-- **Joining is associative where shapes agree.** -/
theorem join_assoc {u : Value} : ∀ {v w : Value}, u.isKeyed = true → v.isKeyed = true → w.isKeyed = true →
    Alike u v → Alike u w → Alike v w → join (join u v) w = join u (join v w) := by
  induction u using Value.induction_get? with
  | mapping a ih =>
    intro v w ha hb hc huv huw hvw
    obtain ⟨b, rfl⟩ := shape_eq_mapping_iff.1 huv.shape_eq.symm
    obtain ⟨c, rfl⟩ := shape_eq_mapping_iff.1 huw.shape_eq.symm
    rw [join, join, join, join, merge_assoc_of_get? (isKeyed_map_iff.1 ha).1 (isKeyed_map_iff.1 hb).1
      (isKeyed_map_iff.1 hc).1]
    intro k u v w hu hv hw
    exact ih k u hu (isKeyed_of_get? ha hu) (isKeyed_of_get? hb hv) (isKeyed_of_get? hc hw) (huv.of_get? hu hv)
      (huw.of_get? hu hw) (hvw.of_get? hv hw)
  | list xs =>
    intro v w _ _ _ huv huw _
    obtain ⟨ys, rfl⟩ := shape_eq_list_iff.1 huv.shape_eq.symm
    obtain ⟨zs, rfl⟩ := shape_eq_list_iff.1 huw.shape_eq.symm
    exact congrArg Value.list (adjoin_assoc xs ys zs)
  | other u hu =>
    intro v w _ _ _ huv huw hvw
    have hv := huv.shape_eq.symm.trans hu
    have hw := huw.shape_eq.symm.trans hu
    rw [join_of_other hw, join_of_other hw, join_of_other hw]

/-! ### Many mappings -/

/-- **Mappings whose shapes agree**: at every path of keys, what stands there in any of them is of one shape. -/
def Agree (ms : List Entries) : Prop :=
  ∀ path, ∃ s : Value.Shape, ∀ m ∈ ms, ∀ v, (Value.map m).at? path = some v → v.shape = s

theorem agree_iff {ms : List Entries} : Agree ms ↔ ∀ m ∈ ms, ∀ n ∈ ms, Alike (.map m) (.map n) := by
  constructor
  · intro h m hm n hn path x y hx hy
    obtain ⟨s, hs⟩ := h path
    rw [hs m hm x hx, hs n hn y hy]
  · intro h path
    by_cases hpath : ∃ m ∈ ms, ∃ v, (Value.map m).at? path = some v
    · obtain ⟨m, hm, v, hv⟩ := hpath
      exact ⟨v.shape, fun n hn w hw => h n hn m hm path w v hw hv⟩
    · exact ⟨.other, fun n hn w hw => absurd ⟨n, hn, w, hw⟩ hpath⟩

theorem agree_iff_isAlike {ms : List Entries} (h : ∀ m ∈ ms, (Value.map m).isKeyed = true) :
    Agree ms ↔ ms.all (fun m => ms.all (fun n => (Value.map m).isAlike (.map n))) = true := by
  simp only [agree_iff, List.all_eq_true]
  exact forall₂_congr fun m hm => forall₂_congr fun n _ => (Value.isAlike_iff (h m hm)).symm

/-- Mappings that can be merged in any portions: each has its keys once, and their shapes agree. -/
structure Compatible (ms : List Entries) : Prop where
  keyed : ∀ m ∈ ms, (Value.map m).isKeyed = true
  agree : Agree ms

namespace Compatible

variable {ms ns xs ys : List Entries}

theorem alike (h : Compatible ms) {m n : Entries} (hm : m ∈ ms) (hn : n ∈ ms) : Alike (.map m) (.map n) :=
  agree_iff.1 h.agree m hm n hn

theorem mono (h : Compatible ms) (hsub : ns ⊆ ms) : Compatible ns where
  keyed m hm := h.keyed m (hsub hm)
  agree := agree_iff.2 fun _ hm _ hn => h.alike (hsub hm) (hsub hn)

theorem cons {m : Entries} (h : Compatible ms) (hm : (Value.map m).isKeyed = true)
    (halike : ∀ n ∈ ms, Alike (.map m) (.map n)) : Compatible (m :: ms) where
  keyed := List.forall_mem_cons.2 ⟨hm, h.keyed⟩
  agree := agree_iff.2 (List.forall_mem_cons.2 ⟨List.forall_mem_cons.2 ⟨.refl _, halike⟩, fun n hn =>
    List.forall_mem_cons.2 ⟨(halike n hn).symm, fun _ ho => h.alike hn ho⟩⟩)

theorem nil_cons (h : Compatible ms) : Compatible ([] :: ms) := h.cons rfl fun n _ => .map_nil n

/-- **A merge can stand for the mappings it is made of.** -/
theorem merge (h : Compatible (a :: b :: ms)) : Compatible (merge a b :: ms) := by
  have ha : a ∈ a :: b :: ms := List.mem_cons_self
  have hb : b ∈ a :: b :: ms := List.mem_cons_of_mem _ List.mem_cons_self
  have hms {m : Entries} (hm : m ∈ ms) : m ∈ a :: b :: ms := List.mem_cons_of_mem _ (List.mem_cons_of_mem _ hm)
  have hjoin : Value.map (Metadata.merge a b) = join (.map a) (.map b) := by rw [join]
  refine (h.mono fun m hm => hms hm).cons ?_ (fun n hn => ?_)
  · rw [hjoin]
    exact isKeyed_join (h.alike ha hb) (h.keyed a ha) (h.keyed b hb)
  · rw [hjoin]
    exact alike_join (h.keyed a ha) (h.keyed b hb) (h.alike ha hb) (h.alike ha (hms hn)) (h.alike hb (hms hn))

theorem merge_assoc (h : Compatible (a :: b :: c :: ms)) :
    Metadata.merge (Metadata.merge a b) c = Metadata.merge a (Metadata.merge b c) := by
  have ha : a ∈ a :: b :: c :: ms := List.mem_cons_self
  have hb : b ∈ a :: b :: c :: ms := List.mem_cons_of_mem _ List.mem_cons_self
  have hc : c ∈ a :: b :: c :: ms := List.mem_cons_of_mem _ (List.mem_cons_of_mem _ List.mem_cons_self)
  have hjoin := join_assoc (h.keyed a ha) (h.keyed b hb) (h.keyed c hc) (h.alike ha hb) (h.alike ha hc) (h.alike hb hc)
  rw [join, join, join, join] at hjoin
  exact Value.map.inj hjoin

/-- A mapping that is merged before others may be merged with all of them. -/
theorem foldl_merge (h : Compatible (a :: b :: xs)) : xs.foldl Metadata.merge (Metadata.merge a b) =
    Metadata.merge a (xs.foldl Metadata.merge b) := by
  induction xs generalizing b with
  | nil => rfl
  | cons c xs ih =>
    have hbca : Compatible (b :: c :: a :: xs) := h.mono fun m hm => by
      simp only [List.mem_cons] at hm ⊢
      tauto
    have habc : Compatible (a :: Metadata.merge b c :: xs) := hbca.merge.mono fun m hm => by
      simp only [List.mem_cons] at hm ⊢
      tauto
    rw [List.foldl_cons, List.foldl_cons, h.merge_assoc, ih habc]

end Compatible

theorem merge_nil_left (h : (Value.map a).isKeyed = true) : merge [] a = a := by
  have ha := (isKeyed_map_iff.1 h).1
  have hnil : AreKeys (keys ([] : Entries)) := .nil
  refine (Value.Entries.ext_of_get? ha ?_ (fun k _ => ?_)).symm
  · rw [keys_merge ha]
    simp [adjoin]
  · rw [get?_merge hnil ha, Value.Entries.get?_nil, Option.merge_none_left]

variable {xs ys : List Entries}

theorem Compatible.foldl_append (h : Compatible (a :: (xs ++ ys))) : Compatible (xs.foldl Metadata.merge a :: ys) := by
  induction xs generalizing a with
  | nil => exact h
  | cons b xs ih => exact ih h.merge

theorem Compatible.mergeAll_cons (h : Compatible (xs ++ ys)) : Compatible (mergeAll xs :: ys) := h.nil_cons.foldl_append

/-- **Mappings may be merged in two portions.** -/
theorem mergeAll_append (h : Compatible (xs ++ ys)) : mergeAll (xs ++ ys) = merge (mergeAll xs) (mergeAll ys) := by
  have hxs : Compatible (mergeAll xs :: [] :: ys) := h.mergeAll_cons.nil_cons.mono (by simp)
  calc mergeAll (xs ++ ys) = ys.foldl merge (mergeAll xs) := by rw [mergeAll, List.foldl_append, ← mergeAll]
    _ = ys.foldl merge (merge (mergeAll xs) []) := by rw [merge_nil]
    _ = merge (mergeAll xs) (mergeAll ys) := hxs.foldl_merge

/-- **Mappings may be merged in any portions.** -/
theorem mergeAll_append_flatten {parts : List (List Entries)} (h : Compatible (xs ++ parts.flatten)) :
    mergeAll (xs ++ parts.map mergeAll) = mergeAll (xs ++ parts.flatten) := by
  induction parts using List.reverseRecOn with
  | nil => rfl
  | append_singleton parts ms ih =>
    rw [List.flatten_append, List.flatten_singleton, ← List.append_assoc] at h ⊢
    have hparts := ih (h.mono (List.subset_append_left _ _))
    rw [List.map_append, List.map_singleton, ← List.append_assoc, mergeAll_concat, hparts, mergeAll_append h]

/-! ### The facts of members -/

theorem at?_of_singleton {k j v x : Value} {path : List Value} (h : (Value.map [(k, v)]).at? (j :: path) = some x) :
    v.at? path = some x := by
  rw [Value.at?, Value.Entries.get?_cons, Value.Entries.get?_nil] at h
  split at h
  · exact h
  · cases h

/-- What stands in a fact at a path of keys: three mappings, one in the other, and a list in the last. -/
theorem shape_at?_of_dependency {group : String} {name producer : Value} {m : Entries}
    (h : dependency group name producer = .ok m) : ∀ {path : List Value} {v : Value}, (Value.map m).at? path = some v →
      v.shape = if path.length ≤ 2 then .mapping else .list := by
  intro path v hv
  rw [dependency] at h
  split at h
  · cases h
    rcases path with - | ⟨k, - | ⟨l, - | ⟨j, - | ⟨i, path⟩⟩⟩⟩
    · cases hv
      rfl
    · cases at?_of_singleton hv
      rfl
    · cases at?_of_singleton (at?_of_singleton hv)
      rfl
    · cases at?_of_singleton (at?_of_singleton (at?_of_singleton hv))
      rfl
    -- nothing is in a list
    · cases at?_of_singleton (at?_of_singleton (at?_of_singleton hv))
  · cases h

theorem isKeyed_of_dependency {group : String} {name producer : Value} {m : Entries}
    (h : dependency group name producer = .ok m) : (Value.map m).isKeyed = true := by
  rw [dependency] at h
  split at h
  case isTrue hname =>
    cases h
    simp [Value.isKeyed, Value.areKeyed, Value.isKey, hname]
  case isFalse => cases h

theorem compatible_of_mapM_dependency {producer : Value} {ms : List (Group × Value)} {facts : List Entries}
    (h : ms.mapM (fun m => dependency m.1.name m.2 producer) = .ok facts) : Compatible facts := by
  have hfact {m : Entries} (hm : m ∈ facts) : ∃ f : Group × Value, dependency f.1.name f.2 producer = .ok m := by
    obtain ⟨f, -, hf⟩ := exists_left_of_forall₂ (except_mapM_eq_ok_iff.1 h) hm
    exact ⟨f, hf⟩
  refine ⟨fun m hm => ?_, fun path => ⟨if path.length ≤ 2 then .mapping else .list, fun m hm v hv => ?_⟩⟩
  · obtain ⟨f, hf⟩ := hfact hm
    exact isKeyed_of_dependency hf
  · obtain ⟨f, hf⟩ := hfact hm
    exact shape_at?_of_dependency hf hv

end Metadata

namespace Node

open Metadata (mergeAll dependency)

mutual

/-- **Merging at every node of a tree** makes what merging all facts of the tree makes, or ends in the same fault. -/
theorem nestedMetadata_eq_mapM (producer : Value) : ∀ n : Node, n.nestedMetadata producer =
    mergeAll <$> n.memberships.mapM (fun m => dependency m.1.name m.2 producer)
  | ⟨_, spec, _, children⟩ => by
    rw [nestedMetadata, nestedMetadataAll_eq_mapM producer children, mapM_eq_map_mapM fun _ _ => rfl, memberships,
      List.mapM_append, membershipsAll_eq_flatMap, mapM_flatMap]
    -- the first fault among the facts is the same on both sides
    cases hown : spec.membership?.toList.mapM (fun m => dependency m.1.name m.2 producer) with
    | error e => rfl
    | ok own =>
      cases hgroups : children.mapM (fun n => n.memberships.mapM (fun m => dependency m.1.name m.2 producer)) with
      | error e => rfl
      | ok groups =>
        have hfacts : (spec.membership?.toList ++ membershipsAll children).mapM
            (fun m => dependency m.1.name m.2 producer) = .ok (own ++ groups.flatten) := by
          rw [List.mapM_append, membershipsAll_eq_flatMap, mapM_flatMap, hown, hgroups]
          rfl
        exact congrArg Except.ok (Metadata.mergeAll_append_flatten (Metadata.compatible_of_mapM_dependency hfacts))

theorem nestedMetadataAll_eq_mapM (producer : Value) : ∀ ns : List Node, nestedMetadataAll ns producer =
    ns.mapM (fun n => mergeAll <$> n.memberships.mapM (fun m => dependency m.1.name m.2 producer))
  | [] => rfl
  | n :: ns => by
    rw [nestedMetadataAll, nestedMetadata_eq_mapM producer n, nestedMetadataAll_eq_mapM producer ns, List.mapM_cons]

end

end Node

/-- The metadata of a layout does not depend on the nesting of its trees, whatever its members name. -/
theorem Layout.nestedMetadata_eq_metadata (l : Layout) : l.nestedMetadata = l.metadata := by
  have hnode (d : Device) : (do
      d.node.checkArrayPath
      d.node.nestedMetadata d.ref.toValue) = d.node.metadata (some d.ref) := by
    rw [Node.nestedMetadata_eq_mapM d.ref.toValue d.node]
    rfl
  rw [Layout.nestedMetadata, Layout.metadata, funext hnode]

open Value (Entries)
open Metadata (merge mergeAll Agree)

/-- **Merging is associative where shapes agree.**  Of mappings that have each key once, the empty one is neutral on
both sides, three may be merged in either grouping, and a list of them may be merged in two portions: the outcome is the
same with its order of keys, their spelling and the order of lists.  So the metadata of a layout does not depend on how
its trees are nested. -/
theorem merging_nests :
    (∀ a : Entries, (Value.map a).isKeyed = true → merge [] a = a ∧ merge a [] = a) ∧
      (∀ a b c : Entries, (∀ m ∈ [a, b, c], (Value.map m).isKeyed = true) → Agree [a, b, c] →
        merge (merge a b) c = merge a (merge b c)) ∧
      (∀ xs ys : List Entries, (∀ m ∈ xs ++ ys, (Value.map m).isKeyed = true) → Agree (xs ++ ys) →
        mergeAll (xs ++ ys) = merge (mergeAll xs) (mergeAll ys)) ∧
      ∀ l : Layout, l.nestedMetadata = l.metadata :=
  ⟨fun a ha => ⟨Metadata.merge_nil_left ha, Metadata.merge_nil a⟩,
    fun _ _ _ hkeyed hagree => (Metadata.Compatible.mk hkeyed hagree).merge_assoc,
    fun _ _ hkeyed hagree => Metadata.mergeAll_append ⟨hkeyed, hagree⟩, Layout.nestedMetadata_eq_metadata⟩

/-- Three mappings that write one key and one item in three ways, and lack some keys. -/
theorem merging_nests_of_three :
    let one : Double := ⟨0x3FF0000000000000⟩
    let a : Entries := [(.text "sizes", .map [(.int 1, .list [.text "u", .int 1]), (.text "x", .int 10)]),
      (.text "name", .null)]
    let b : Entries := [(.text "sizes", .map [(.bool true, .list [.float one, .text "v", .text "u"])]),
      (.text "name", .int 2)]
    let c : Entries := [(.text "more", .list [.map []]), (.text "name", .text "c"),
      (.text "sizes", .map [(.text "x", .int 20), (.float one, .list [.text "v", .bool true, .text "w"])])]
    (∀ m ∈ [a, b, c], (Value.map m).isKeyed = true) ∧ Agree [a, b, c] ∧
      merge (merge a b) c = merge a (merge b c) ∧ mergeAll ([a] ++ [b, c]) = merge (mergeAll [a]) (mergeAll [b, c]) ∧
      merge [] a = a ∧
      merge a (merge b c) = [
        (.text "sizes", .map [(.int 1, .list [.text "u", .int 1, .text "v", .text "w"]), (.text "x", .int 20)]),
        (.text "name", .text "c"), (.text "more", .list [.map []])] := by
  intro one a b c
  have hkeyed : ∀ m ∈ [a, b, c], (Value.map m).isKeyed = true := by decide +kernel
  have hagree : Agree [a, b, c] := (Metadata.agree_iff_isAlike hkeyed).2 (by decide +kernel)
  obtain ⟨hnil, hassoc, happend, -⟩ := merging_nests
  exact ⟨hkeyed, hagree, hassoc a b c hkeyed hagree, happend [a] [b, c] hkeyed hagree, (hnil a (hkeyed a (by simp))).1,
    by decide +kernel⟩

/-- Where a value replaces a mapping, the grouping matters. -/
example :
    let a : Entries := [(.text "k", .map [(.text "x", .int 1)])]
    let b : Entries := [(.text "k", .int 1)]
    let c : Entries := [(.text "k", .map [(.text "y", .int 2)])]
    merge (merge a b) c ≠ merge a (merge b c) := by decide +kernel

end Provision
