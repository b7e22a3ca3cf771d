import Provision.Proofs.Layout.Typed
/-!
# What metadata says exactly

A member contributes a fact: the group and the name of the aggregate that it feeds, and the device it lies under.
Metadata that is made from facts is a `table` on every level: each key once, where it stood first, with what is listed
under it.  Joining two such values is making one from the facts of both (`Metadata.Appends`), level by level.  So it
does not matter in which portions the facts of a layout are merged (`Layout.nestedMetadata_eq`), and no edge is lost,
invented, repeated or moved (`dependencies_exact`).
-/
namespace Provision

open Value (Entries entry node)

section Once

variable {α : Type} [BEq α] [LawfulBEq α]

theorem eraseDups_filter (p : α → Bool) : ∀ xs : List α, (xs.filter p).eraseDups = xs.eraseDups.filter p
  | [] => rfl
  | x :: xs => by
    have ih := eraseDups_filter p (xs.filter (fun y => !y == x))
    rw [List.filter_filter] at ih
    rw [List.eraseDups_cons]
    cases hp : p x with
    | true =>
      rw [List.filter_cons_of_pos hp, List.filter_cons_of_pos hp, List.eraseDups_cons, List.filter_filter, ← ih]
      simp only [Bool.and_comm]
    | false =>
      -- `x` itself is not chosen, so it need not be dropped from what is
      have hsame (y : α) (_ : y ∈ xs) : (p y && !y == x) = p y := by
        cases hy : y == x with
        | true => rw [eq_of_beq hy, hp]; rfl
        | false => simp
      rw [List.filter_cons_of_neg (by simp [hp]), List.filter_cons_of_neg (by simp [hp]), ← ih, List.filter_congr hsame]
termination_by xs => xs.length
decreasing_by
  simp only [List.length_cons]
  exact Nat.lt_succ_of_le (List.length_filter_le _ _)

theorem eraseDups_append (xs ys : List α) :
    (xs ++ ys).eraseDups = xs.eraseDups ++ ys.eraseDups.filter (fun y => !xs.contains y) := by
  rw [List.eraseDups_append, List.removeAll, eraseDups_filter]

end Once

theorem Value.same_text (s t : String) : Value.same (.text s) (.text t) = (s == t) := by
  simp [Value.same, Value.sameScalar]

namespace Metadata

variable {α : Type}

/-! ### Tables -/

def listed (k : String) (xs : List (String × α)) : List α := (xs.filter (fun x => x.1 == k)).map (·.2)

def keysOf (xs : List (String × α)) : List String := (xs.map Prod.fst).eraseDups

/-- **Entries made from a list**: each key where it stood first, with a value made from what is listed under it. -/
def table (value : List α → Value) (xs : List (String × α)) : Entries :=
  (keysOf xs).map (fun k => entry k (value (listed k xs)))

theorem listed_append (k : String) (xs ys : List (String × α)) : listed k (xs ++ ys) = listed k xs ++ listed k ys := by
  rw [listed, List.filter_append, List.map_append]
  rfl

theorem mem_listed {k : String} {xs : List (String × α)} {a : α} : a ∈ listed k xs ↔ (k, a) ∈ xs := by
  simp [listed]

theorem mem_keysOf_iff {k : String} {xs : List (String × α)} : k ∈ keysOf xs ↔ listed k xs ≠ [] := by
  simp [keysOf, List.mem_eraseDups, listed]

theorem keysOf_append (xs ys : List (String × α)) :
    keysOf (xs ++ ys) = keysOf xs ++ (keysOf ys).filter (fun k => !(keysOf xs).contains k) := by
  rw [keysOf, List.map_append, eraseDups_append]
  refine congrArg (keysOf xs ++ ·) (List.filter_congr (fun k _ => ?_))
  simp [keysOf, List.mem_eraseDups]

theorem nodup_keysOf (xs : List (String × α)) : (keysOf xs).Nodup := Order.nodup_eraseDups _

theorem map_fst_table (value : List α → Value) (xs : List (String × α)) :
    (table value xs).map Prod.fst = (keysOf xs).map Value.text := by
  rw [table, List.map_map]
  rfl

theorem nodup_table (value : List α → Value) (xs : List (String × α)) : ((table value xs).map Prod.fst).Nodup := by
  rw [map_fst_table]
  exact (nodup_keysOf xs).map (fun _ _ => Value.text.inj)

theorem mem_table_iff {value : List α → Value} {xs : List (String × α)} {e : Value × Value} :
    e ∈ table value xs ↔ ∃ k, listed k xs ≠ [] ∧ e = entry k (value (listed k xs)) := by
  simp only [table, List.mem_map, mem_keysOf_iff, eq_comm]

theorem table_eq_nil_iff {value : List α → Value} {xs : List (String × α)} : table value xs = [] ↔ xs = [] := by
  cases xs with
  | nil => simp [table, keysOf]
  | cons x xs => simp [table, keysOf, List.eraseDups_cons]

/-! ### Merging tables -/

theorem get?_map_entry (f : String → Value) (j : String) : ∀ ks : List String,
    Entries.get? (ks.map (fun k => entry k (f k))) (.text j) = if j ∈ ks then some (f j) else none
  | [] => rfl
  | k :: ks => by
    have ih := get?_map_entry f j ks
    rw [Entries.get?] at ih ⊢
    by_cases hjk : j = k
    · simp [entry, Value.same_text, hjk]
    · rw [List.map_cons, List.find?_cons_of_neg (by simpa [entry, Value.same_text] using hjk), ih]
      simp [hjk]

theorem put_map_entry (f : String → Value) (j : String) (v : Value) : ∀ {ks : List String}, ks.Nodup →
    Entries.put (ks.map (fun k => entry k (f k))) (.text j) v =
      (if j ∈ ks then ks else ks ++ [j]).map (fun k => entry k (if k = j then v else f k))
  | [], _ => by simp [Entries.put, entry]
  | k :: ks, h => by
    obtain ⟨hk, hks⟩ := List.nodup_cons.1 h
    have ih := put_map_entry f j v hks
    by_cases hjk : j = k
    · subst hjk
      have hrest (x : String) (hx : x ∈ ks) : f x = if x = j then v else f x := by
        rw [if_neg]
        rintro rfl
        exact hk hx
      rw [if_pos List.mem_cons_self, List.map_cons, List.map_cons,
        List.map_congr_left (fun x hx => congrArg (entry x) (hrest x hx)), Entries.put]
      simp [entry, Value.same_text]
    · have hkj : ¬ k = j := fun e => hjk e.symm
      rw [List.map_cons, Entries.put, if_neg (by simpa [entry, Value.same_text] using hjk), ih]
      simp only [List.mem_cons, hjk, false_or]
      split <;> simp [hkj]

/-- **Merging entries that are made from keys**: the new keys follow, and values under common keys are joined. -/
theorem merge_map_entry (g : String → Value) : ∀ {js ks : List String} (f : String → Value), ks.Nodup → js.Nodup →
    merge (ks.map (fun k => entry k (f k))) (js.map (fun k => entry k (g k))) =
      (ks ++ js.filter (fun j => !ks.contains j)).map (fun k => entry k
        (if k ∈ js then (if k ∈ ks then join (f k) (g k) else g k) else f k))
  | [], ks, f, _, _ => by simp [merge_nil]
  | j :: js, ks, f, hks, hjs => by
    obtain ⟨hj, hjs⟩ := List.nodup_cons.1 hjs
    have hput : (if j ∈ ks then ks else ks ++ [j]).Nodup := by
      split
      · exact hks
      · rename_i hjks
        refine List.nodup_append.2 ⟨hks, List.nodup_singleton j, fun a ha b hb => ?_⟩
        rintro rfl
        exact hjks (List.mem_singleton.1 hb ▸ ha)
    have hkeys : (if j ∈ ks then ks else ks ++ [j]) ++ js.filter (fun x => !(if j ∈ ks then ks else ks ++ [j]).contains x) =
        ks ++ (j :: js).filter (fun x => !ks.contains x) := by
      split
      · rename_i hjks
        simp [hjks]
      · rename_i hjks
        rw [List.filter_cons_of_pos (by simpa using hjks), List.append_assoc, List.singleton_append]
        refine congrArg (ks ++ j :: ·) (List.filter_congr (fun x hx => ?_))
        have hxj : x ≠ j := fun e => hj (e ▸ hx)
        simp [hxj]
    rw [List.map_cons, entry, merge, get?_map_entry, put_map_entry _ _ _ hks, merge_map_entry g _ hput hjs, hkeys]
    refine List.map_congr_left (fun k _ => ?_)
    by_cases hkj : k = j
    · subst hkj
      by_cases hkks : k ∈ ks <;> simp [hj, hkks]
    · by_cases hjks : j ∈ ks <;> simp [hkj, hjks]

/-- **Values made from lists so that joining two of them appends the lists.** -/
def Appends (value : List α → Value) : Prop := ∀ xs ys, join (value xs) (value ys) = value (xs ++ ys)

theorem Appends.merge_table {value : List α → Value} (h : Appends value) (xs ys : List (String × α)) :
    merge (table value xs) (table value ys) = table value (xs ++ ys) := by
  rw [table, table, merge_map_entry _ _ (nodup_keysOf xs) (nodup_keysOf ys), table, keysOf_append]
  refine List.map_congr_left (fun k _ => congrArg (entry k) ?_)
  rw [listed_append]
  by_cases hy : k ∈ keysOf ys
  · by_cases hx : k ∈ keysOf xs
    · rw [if_pos hy, if_pos hx, h]
    · rw [if_pos hy, if_neg hx, not_ne_iff.1 (mt mem_keysOf_iff.2 hx), List.nil_append]
  · rw [if_neg hy, not_ne_iff.1 (mt mem_keysOf_iff.2 hy), List.append_nil]

theorem Appends.table {value : List α → Value} (h : Appends value) : Appends (fun xs => .map (table value xs)) :=
  fun xs ys => by rw [join, h.merge_table]

/-! ### Facts -/

/-- What a member says: the group and the name of the aggregate that it feeds, and the device it lies under. -/
abbrev MemberFact := String × String × DeviceRef

def devicesValue (rs : List DeviceRef) : Value := .list (rs.eraseDups.map DeviceRef.toValue)

def aggregatesValue (xs : List (String × DeviceRef)) : Value := .map (table devicesValue xs)

def ofFacts (fs : List MemberFact) : Entries :=
  table (fun xs => .map (table aggregatesValue xs)) (fs.map (fun f => ("dependencies", f)))

theorem appends_devicesValue : Appends devicesValue := by
  intro rs ss
  rw [devicesValue, devicesValue, devicesValue, join_devices, eraseDups_append]
  refine congrArg (fun x => Value.list ((rs.eraseDups ++ x).map DeviceRef.toValue)) (List.filter_congr (fun s _ => ?_))
  rw [Bool.eq_iff_iff]
  simp only [Bool.not_eq_true', List.any_eq_false, DeviceRef.same_toValue_iff, List.mem_eraseDups, List.contains_eq_mem,
    decide_eq_false_iff_not]
  exact ⟨fun h hs => h s hs rfl, fun h r hr e => h (e ▸ hr)⟩

theorem appends_aggregatesValue : Appends aggregatesValue := appends_devicesValue.table

theorem merge_ofFacts (fs gs : List MemberFact) : merge (ofFacts fs) (ofFacts gs) = ofFacts (fs ++ gs) := by
  rw [ofFacts, ofFacts, appends_aggregatesValue.table.merge_table, ofFacts, List.map_append]

/-- **Facts may be merged in any portions.** -/
theorem mergeAll_map_ofFacts (parts : List (List MemberFact)) : mergeAll (parts.map ofFacts) = ofFacts parts.flatten := by
  induction parts using List.reverseRecOn with
  | nil => rfl
  | append_singleton parts fs ih =>
    rw [List.map_append, List.map_singleton, mergeAll_concat, ih, merge_ofFacts, List.flatten_append,
      List.flatten_singleton]

def fact? (producer : DeviceRef) : Group × Value → Option MemberFact
  | (group, .text name) => some (group.name, name, producer)
  | _ => none

theorem fact?_eq_some_iff {producer : DeviceRef} {m : Group × Value} {f : MemberFact} :
    fact? producer m = some f ↔
      ∃ (group : Group) (name : String), m = (group, .text name) ∧ f = (group.name, name, producer) := by
  constructor
  · intro h
    unfold fact? at h
    split at h
    · exact ⟨_, _, rfl, (Option.some.inj h).symm⟩
    · cases h
  · rintro ⟨group, name, rfl, rfl⟩
    rfl

theorem dependency_text (group name : String) (producer : DeviceRef) :
    dependency group (.text name) producer.toValue = .ok (ofFacts [(group, name, producer)]) := by
  simp [dependency, Value.isKey, ofFacts, table, keysOf, listed, aggregatesValue, devicesValue, entry,
    List.eraseDups_cons]

theorem mapM_dependency (producer : DeviceRef) : ∀ {ms : List (Group × Value)}, (∀ m ∈ ms, m.2.isText = true) →
    ms.mapM (fun m => dependency m.1.name m.2 producer.toValue) =
      .ok ((ms.filterMap (fact? producer)).map (fun f => ofFacts [f]))
  | [], _ => rfl
  | (group, ref) :: ms, h => by
    obtain ⟨href, hms⟩ := List.forall_mem_cons.1 h
    obtain ⟨name, rfl⟩ := Value.isText_iff.1 href
    rw [List.mapM_cons, mapM_dependency producer hms, dependency_text]
    rfl

theorem mergeAll_map_singleton (fs : List MemberFact) : mergeAll (fs.map (fun f => ofFacts [f])) = ofFacts fs := by
  have hparts := mergeAll_map_ofFacts (fs.map (fun f => [f]))
  rwa [List.map_map, Function.comp_def, ← List.flatMap_def, List.flatMap_singleton'] at hparts

/-- The mapping of groups that metadata holds; there is none in metadata without facts. -/
def dependencies (m : Entries) : Value := (Entries.get? m (.text "dependencies")).getD (.map [])

theorem dependencies_ofFacts (fs : List MemberFact) : dependencies (ofFacts fs) = .map (table aggregatesValue fs) := by
  cases fs with
  | nil => rfl
  | cons f fs =>
    have hkeys : keysOf ((f :: fs).map (fun f => ("dependencies", f))) = ["dependencies"] := by
      rw [keysOf, List.map_map]
      simp [Function.comp_def, List.eraseDups_cons, List.map_const']
    have hlisted : listed "dependencies" ((f :: fs).map (fun f => ("dependencies", f))) = f :: fs := by
      simp [listed, List.filter_map, Function.comp_def]
    rw [dependencies, ofFacts, table, hkeys, List.map_singleton, hlisted]
    simp [Entries.get?, entry, Value.same_text_iff]

def names (group : Group) (name : String) (m : Group × Value) : Bool := m.1 == group && Value.same (.text name) m.2

theorem names_iff {group : Group} {name : String} {m : Group × Value} :
    names group name m = true ↔ m = (group, .text name) := by
  rw [names, Bool.and_eq_true, beq_iff_eq, Value.same_text_iff, Prod.ext_iff]

theorem listed_fact? (producer : DeviceRef) (group : Group) (name : String) (m : Group × Value) :
    listed name (listed group.name (fact? producer m).toList) = if names group name m then [producer] else [] := by
  split
  · rename_i h
    rw [names_iff.1 h]
    simp [fact?, listed]
  · rename_i h
    refine List.eq_nil_iff_forall_not_mem.2 (fun r hr => h ?_)
    rw [mem_listed, mem_listed, Option.mem_toList] at hr
    obtain ⟨g, s, rfl, hf⟩ := fact?_eq_some_iff.1 hr
    obtain ⟨hg, hs⟩ := Prod.mk.inj hf
    rw [names_iff, Group.name_injective hg, (Prod.mk.inj hs).1]

/-- What the facts of memberships under one device list for an aggregate: the device, once for each membership. -/
theorem listed_filterMap_fact? (producer : DeviceRef) (group : Group) (name : String) (ms : List (Group × Value)) :
    listed name (listed group.name (ms.filterMap (fact? producer))) =
      (ms.filter (names group name)).map (fun _ => producer) := by
  induction ms with
  | nil => rfl
  | cons m ms ih =>
    have hcons : (m :: ms).filterMap (fact? producer) = (fact? producer m).toList ++ ms.filterMap (fact? producer) := by
      simp [List.filterMap_eq_flatMap_toList]
    rw [hcons, listed_append, listed_append, ih, listed_fact?, List.filter_cons]
    split <;> rfl

end Metadata

namespace Node

def memberFacts (n : Node) (producer : DeviceRef) : List Metadata.MemberFact :=
  n.memberships.filterMap (Metadata.fact? producer)

/-- Whether the path of what an array holds can be written, if a node is one that holds something. -/
def HasPath (n : Node) : Prop :=
  ∀ name level metadata, n.spec = .array name level metadata → n.children ≠ [] → name.isWritable = true

theorem checkArrayPath_cases : ∀ n : Node, n.HasPath ∧ n.checkArrayPath = .ok () ∨
    ¬ n.HasPath ∧ n.checkArrayPath = .error (.misuse .unwritable)
  | ⟨key, spec, hooks, []⟩ => .inl ⟨fun _ _ _ _ hne => absurd rfl hne, by cases spec <;> rfl⟩
  | ⟨key, spec, hooks, c :: cs⟩ => by
    cases spec
    case array name level metadata =>
      cases hname : name.isWritable with
      | true =>
        refine .inl ⟨fun _ _ _ hspec _ => ?_, Value.requireWritable_eq_ok_iff.2 (by simpa using hname)⟩
        exact (Spec.array.inj hspec).1 ▸ hname
      | false =>
        refine .inr ⟨fun h => ?_, Value.requireWritable_eq_error_iff.2 ⟨by simpa using hname, rfl⟩⟩
        exact Bool.false_ne_true (hname.symm.trans (h name level metadata rfl (List.cons_ne_nil c cs)))
    all_goals exact .inl ⟨fun _ _ _ hspec => (by cases hspec), rfl⟩

theorem metadata_eq_ofFacts {n : Node} (h : ∀ m ∈ n.memberships, m.2.isText = true) (producer : DeviceRef) :
    n.metadata (some producer) = (fun _ => Metadata.ofFacts (n.memberFacts producer)) <$> n.checkArrayPath := by
  have hfacts := Metadata.mapM_dependency producer h
  rw [metadata, Option.map_some, Option.getD_some]
  dsimp only
  rw [hfacts, except_ok_bind, Metadata.mergeAll_map_singleton]
  rfl

mutual

/-- The facts of a tree, merged at every node: its own, if it is a member, before those of the nodes that it holds. -/
def nestedMetadata : Node → Value → Except Fault Entries
  | ⟨_, spec, _, children⟩, producer => do
    let own ← spec.membership?.toList.mapM (fun m => Metadata.dependency m.1.name m.2 producer)
    let below ← nestedMetadataAll children producer
    return Metadata.mergeAll (own ++ below)

def nestedMetadataAll : List Node → Value → Except Fault (List Entries)
  | [], _ => return []
  | n :: ns, producer => do
    let facts ← nestedMetadata n producer
    let rest ← nestedMetadataAll ns producer
    return facts :: rest

end

theorem membershipsAll_eq_flatMap (ns : List Node) : membershipsAll ns = ns.flatMap memberships := by
  induction ns with
  | nil => rfl
  | cons n ns ih => rw [membershipsAll, List.flatMap_cons, ih]

mutual

/-- **Merging at every node** of a tree makes the metadata of all its facts. -/
theorem nestedMetadata_eq (producer : DeviceRef) : ∀ n : Node, (∀ m ∈ n.memberships, m.2.isText = true) →
    n.nestedMetadata producer.toValue = .ok (Metadata.ofFacts (n.memberFacts producer))
  | ⟨key, spec, hooks, children⟩, h => by
    rw [memberships] at h
    have hown := Metadata.mapM_dependency producer (fun m hm => h m (List.mem_append_left _ hm))
    have hbelow := nestedMetadataAll_eq producer children (fun m hm => h m (List.mem_append_right _ hm))
    rw [nestedMetadata, hown, hbelow, except_ok_bind, except_ok_bind]
    set own := spec.membership?.toList.filterMap (Metadata.fact? producer) with hown'
    -- single facts of the node itself, then the facts of every tree below it
    have hparts : own.map (fun f => Metadata.ofFacts [f]) ++
        children.map (fun c => Metadata.ofFacts (c.memberFacts producer)) =
        (own.map (fun f => [f]) ++ children.map (·.memberFacts producer)).map Metadata.ofFacts := by
      rw [List.map_append, List.map_map, List.map_map]
      rfl
    have hflatten : (own.map (fun f => [f]) ++ children.map (·.memberFacts producer)).flatten =
        memberFacts ⟨key, spec, hooks, children⟩ producer := by
      rw [List.flatten_append, ← List.flatMap_def, ← List.flatMap_def, List.flatMap_singleton', memberFacts, memberships,
        List.filterMap_append, membershipsAll_eq_flatMap, List.filterMap_flatMap]
      rfl
    rw [hparts, Metadata.mergeAll_map_ofFacts, hflatten]
    rfl

theorem nestedMetadataAll_eq (producer : DeviceRef) : ∀ ns : List Node, (∀ m ∈ membershipsAll ns, m.2.isText = true) →
    nestedMetadataAll ns producer.toValue = .ok (ns.map (fun n => Metadata.ofFacts (n.memberFacts producer)))
  | [], _ => rfl
  | n :: ns, h => by
    rw [nestedMetadataAll, nestedMetadata_eq producer n (fun m hm => h m (List.mem_append_left _ hm)),
      nestedMetadataAll_eq producer ns (fun m hm => h m (List.mem_append_right _ hm))]
    rfl

end

def feeds (n : Node) (group : Group) (name : String) : Bool := n.memberships.any (Metadata.names group name)

theorem feeds_iff {n : Node} {group : Group} {name : String} :
    n.feeds group name = true ↔ ∃ m ∈ n.subnodes, m.spec.membership? = some (group, .text name) := by
  rw [feeds, memberships_eq_filterMap, List.any_eq_true]
  simp only [List.mem_filterMap, Metadata.names_iff, exists_eq_right]

end Node

namespace Layout

def memberFacts (l : Layout) : List Metadata.MemberFact := l.devices.flatMap (fun d => d.node.memberFacts d.ref)

/-- The metadata of a layout, merged at every node and then over its devices. -/
def nestedMetadata (l : Layout) : Except Fault Entries := do
  let parts ← l.devices.mapM (fun d => do
    d.node.checkArrayPath
    d.node.nestedMetadata d.ref.toValue)
  return Metadata.mergeAll parts

/-- The devices that hold a member of an aggregate, in the order of declaration. -/
def feeding (l : Layout) (group : Group) (name : String) : List DeviceRef :=
  (l.devices.filter (·.node.feeds group name)).map Device.ref

variable {l : Layout}

theorem mergeAll_map_memberFacts (l : Layout) :
    Metadata.mergeAll (l.devices.map (fun d => Metadata.ofFacts (d.node.memberFacts d.ref))) =
      Metadata.ofFacts l.memberFacts := by
  rw [memberFacts, List.flatMap_def, ← Metadata.mergeAll_map_ofFacts, List.map_map]
  rfl

theorem metadata_eq_ofFacts (h : ∀ d ∈ l.devices, ∀ m ∈ d.node.memberships, m.2.isText = true) :
    l.metadata = (fun _ => Metadata.ofFacts l.memberFacts) <$> forM l.devices fun d => d.node.checkArrayPath := by
  rw [metadata, except_mapM_eq_map_forM fun d hd => Node.metadata_eq_ofFacts (h d hd) d.ref, ← mergeAll_map_memberFacts]
  cases forM l.devices fun d : Device => d.node.checkArrayPath <;> rfl

/-- **The portions in which facts are merged do not matter.** -/
theorem nestedMetadata_eq (h : ∀ d ∈ l.devices, ∀ m ∈ d.node.memberships, m.2.isText = true) :
    l.nestedMetadata = l.metadata := by
  have hnested (d : Device) (hd : d ∈ l.devices) : (do
      d.node.checkArrayPath
      d.node.nestedMetadata d.ref.toValue) =
        (fun _ => Metadata.ofFacts (d.node.memberFacts d.ref)) <$> d.node.checkArrayPath := by
    rw [Node.nestedMetadata_eq d.ref d.node (h d hd)]
    rfl
  rw [metadata_eq_ofFacts h, nestedMetadata, except_mapM_eq_map_forM hnested, ← mergeAll_map_memberFacts]
  cases forM l.devices fun d : Device => d.node.checkArrayPath <;> rfl

/-- **When a layout has metadata**, if its members name their aggregates with texts: where every array has its path. -/
theorem metadata_cases (h : ∀ d ∈ l.devices, ∀ m ∈ d.node.memberships, m.2.isText = true) :
    (∀ d ∈ l.devices, d.node.HasPath) ∧ l.metadata = .ok (Metadata.ofFacts l.memberFacts) ∨
    (¬ ∀ d ∈ l.devices, d.node.HasPath) ∧ l.metadata = .error (.misuse .unwritable) := by
  rw [metadata_eq_ofFacts h]
  cases hcheck : forM l.devices fun d : Device => d.node.checkArrayPath with
  | ok =>
    refine .inl ⟨fun d hd => ?_, rfl⟩
    obtain ⟨hpath, -⟩ | ⟨-, hfault⟩ := d.node.checkArrayPath_cases
    · exact hpath
    · cases (except_forM_eq_ok_iff.1 hcheck d hd).symm.trans hfault
  | error f =>
    obtain ⟨before, d, after, hsplit, -, hfault⟩ := except_forM_eq_error_iff.1 hcheck
    obtain ⟨-, hok⟩ | ⟨hpath, hfault'⟩ := d.node.checkArrayPath_cases
    · cases hok.symm.trans hfault
    · obtain rfl := Except.error.inj (hfault.symm.trans hfault')
      exact .inr ⟨fun hpaths => hpath (hpaths d (hsplit ▸ List.mem_append_right before List.mem_cons_self)), rfl⟩

theorem mem_feeding_iff {group : Group} {name : String} {r : DeviceRef} : r ∈ l.feeding group name ↔
    ∃ d ∈ l.devices, d.ref = r ∧ ∃ n ∈ d.node.subnodes, n.spec.membership? = some (group, .text name) := by
  simp only [feeding, List.mem_map, List.mem_filter, Node.feeds_iff]
  exact ⟨fun ⟨d, ⟨hd, hn⟩, hr⟩ => ⟨d, hd, hr, hn⟩, fun ⟨d, hd, hr, hn⟩ => ⟨d, ⟨hd, hn⟩, hr⟩⟩

theorem feeding_sublist (l : Layout) (group : Group) (name : String) : (l.feeding group name).Sublist l.refs :=
  List.filter_sublist.map Device.ref

end Layout

theorem eraseDups_map_const {α β : Type} [BEq β] [LawfulBEq β] (b : β) (xs : List α) :
    (xs.map (fun _ => b)).eraseDups = if xs = [] then [] else [b] := by
  cases xs with
  | nil => rfl
  | cons x xs => simp [List.eraseDups_cons]

/-- **What the facts of devices list for an aggregate**: the devices that hold a member of it, each once. -/
theorem eraseDups_listed (group : Group) (name : String) : ∀ {ds : List Device}, (ds.map Device.ref).Nodup →
    (Metadata.listed name (Metadata.listed group.name (ds.flatMap (fun d => d.node.memberFacts d.ref)))).eraseDups =
      (ds.filter (·.node.feeds group name)).map Device.ref
  | [], _ => rfl
  | d :: ds, h => by
    obtain ⟨hd, hds⟩ := List.nodup_cons.1 h
    have hfed : d.node.feeds group name = true ↔ d.node.memberships.filter (Metadata.names group name) ≠ [] := by
      rw [Node.feeds, List.any_eq_true, ne_eq, List.filter_eq_nil_iff]
      simp
    -- the device is not among those after it
    have hlater (r : DeviceRef) (hr : r ∈ (ds.filter (·.node.feeds group name)).map Device.ref) :
        (!((d.node.memberships.filter (Metadata.names group name)).map (fun _ => d.ref)).contains r) = true := by
      rw [Bool.not_eq_true', List.contains_eq_mem, decide_eq_false_iff_not]
      intro hmem
      obtain ⟨_, -, rfl⟩ := List.mem_map.1 hmem
      exact hd ((List.filter_sublist.map Device.ref).subset hr)
    rw [List.flatMap_cons, Metadata.listed_append, Metadata.listed_append, Node.memberFacts,
      Metadata.listed_filterMap_fact?, eraseDups_append, eraseDups_listed group name hds, List.filter_eq_self.2 hlater,
      eraseDups_map_const, List.filter_cons]
    by_cases hf : d.node.feeds group name = true
    · rw [if_pos hf, if_neg (hfed.1 hf)]
      rfl
    · rw [if_neg hf, if_pos (not_ne_iff.1 (mt hfed.2 hf))]
      rfl

/-- **A mapping of groups that tells which devices feed which aggregates**: an aggregate with feeding devices stands under
its group, each once, with these devices in order, and nothing else stands there. -/
structure Layout.Tells (l : Layout) (groups : Entries) : Prop where
  groupsOnce : (groups.map Prod.fst).Nodup
  aggregatesOnce : ∀ e ∈ groups, ∃ aggregates : Entries, e.2 = .map aggregates ∧ aggregates ≠ [] ∧
    (aggregates.map Prod.fst).Nodup
  stands_iff : ∀ g n v : Value, (∃ aggregates, (g, .map aggregates) ∈ groups ∧ (n, v) ∈ aggregates) ↔
    ∃ (group : Group) (name : String), g = .text group.name ∧ n = .text name ∧ l.feeding group name ≠ [] ∧
      v = .list ((l.feeding group name).map DeviceRef.toValue)

theorem Layout.tells_table {l : Layout} (hl : l.refs.Nodup) :
    l.Tells (Metadata.table Metadata.aggregatesValue l.memberFacts) := by
  have hfeeding (group : Group) (name : String) :
      (Metadata.listed name (Metadata.listed group.name l.memberFacts)).eraseDups = l.feeding group name :=
    eraseDups_listed group name hl
  have hnil (group : Group) (name : String) :
      Metadata.listed name (Metadata.listed group.name l.memberFacts) = [] ↔ l.feeding group name = [] := by
    rw [← hfeeding]
    cases Metadata.listed name (Metadata.listed group.name l.memberFacts) <;> simp [List.eraseDups_cons]
  refine ⟨Metadata.nodup_table _ _, fun e he => ?_, fun g n v => ?_⟩
  · obtain ⟨k, hk, rfl⟩ := Metadata.mem_table_iff.1 he
    exact ⟨_, rfl, mt Metadata.table_eq_nil_iff.1 hk, Metadata.nodup_table _ _⟩
  · constructor
    · rintro ⟨aggregates, hg, hn⟩
      obtain ⟨k, hk, heq⟩ := Metadata.mem_table_iff.1 hg
      obtain ⟨rfl, haggregates⟩ := Prod.mk.inj heq
      obtain rfl := Value.map.inj haggregates
      obtain ⟨name, hname, heq⟩ := Metadata.mem_table_iff.1 hn
      obtain ⟨rfl, rfl⟩ := Prod.mk.inj heq
      -- what is listed is listed under the name of a group
      obtain ⟨f, hf⟩ := List.exists_mem_of_ne_nil _ hk
      obtain ⟨d, -, hf⟩ := List.mem_flatMap.1 (Metadata.mem_listed.1 hf)
      obtain ⟨_, -, hf⟩ := List.mem_filterMap.1 hf
      obtain ⟨group, _, -, hf⟩ := Metadata.fact?_eq_some_iff.1 hf
      obtain ⟨rfl, -⟩ := Prod.mk.inj hf
      exact ⟨group, name, rfl, rfl, mt (hnil group name).2 hname, by rw [Metadata.devicesValue, hfeeding]⟩
    · rintro ⟨group, name, rfl, rfl, hne, rfl⟩
      have hname := mt (hnil group name).1 hne
      have hgroup : Metadata.listed group.name l.memberFacts ≠ [] := fun e => hname (by rw [e]; rfl)
      refine ⟨_, Metadata.mem_table_iff.2 ⟨group.name, hgroup, rfl⟩, Metadata.mem_table_iff.2 ⟨name, hname, ?_⟩⟩
      rw [Metadata.devicesValue, hfeeding]
      rfl

/-- **Dependency extraction is exact.**  Where members name their aggregates with texts, a layout that was read has metadata
if every array that holds something has its path; else its name has a number of too many digits, and that is the fault.  The
metadata is the same whether it is merged at every node or only over the devices, and it tells which devices feed which
aggregates: under the group and the name of an aggregate stand the devices whose trees hold a member of it, in the order of
declaration, each once. -/
theorem dependencies_exact {tree : Value} {l : Layout} (hl : (Layout.read tree).outcome = .ok l)
    (hnames : ∀ n ∈ l.nodes, ∀ m, n.spec.membership? = some m → m.2.isText = true) :
    ((¬ ∀ d ∈ l.devices, d.node.HasPath) →
      l.metadata = .error (.misuse .unwritable) ∧ l.nestedMetadata = .error (.misuse .unwritable)) ∧
    ((∀ d ∈ l.devices, d.node.HasPath) →
      ∃ m groups, l.metadata = .ok m ∧ l.nestedMetadata = .ok m ∧ Metadata.dependencies m = .map groups ∧ l.Tells groups ∧
        ∀ (group : Group) (name : String), (l.feeding group name).Sublist l.refs ∧ (l.feeding group name).Nodup ∧
          ∀ r, r ∈ l.feeding group name ↔
            ∃ d ∈ l.devices, d.ref = r ∧ ∃ n ∈ d.node.subnodes, n.spec.membership? = some (group, .text name)) := by
  have hnodup := (Layout.wellFormed_of_read hl).nodup
  have hmembers (d : Device) (hd : d ∈ l.devices) (m : Group × Value) (hm : m ∈ d.node.memberships) : m.2.isText = true := by
    rw [Node.memberships_eq_filterMap] at hm
    obtain ⟨n, hn, hm⟩ := List.mem_filterMap.1 hm
    exact hnames n (Layout.mem_nodes_iff.2 ⟨d, hd, hn⟩) m hm
  have hnested := Layout.nestedMetadata_eq hmembers
  obtain ⟨hpaths, hmetadata⟩ | ⟨hpaths, hmetadata⟩ := Layout.metadata_cases hmembers
  · refine ⟨fun h => absurd hpaths h, fun _ => ⟨_, _, hmetadata, hnested.trans hmetadata, Metadata.dependencies_ofFacts _,
      Layout.tells_table hnodup, fun group name => ⟨l.feeding_sublist group name, ?_, fun r => Layout.mem_feeding_iff⟩⟩⟩
    exact hnodup.sublist (l.feeding_sublist group name)
  · exact ⟨fun _ => ⟨hmetadata, hnested.trans hmetadata⟩, fun h => absurd h hpaths⟩

/-- Members on two partitions of one disk and in a container on another, and one on a volume of the group that they make. -/
theorem dependencies_exact_of_nested_members :
    let member := entry "content" (node "lvm_pv" [entry "vg" (.text "vg")])
    let tree : Value := .map [
      entry "lvm_vg" (.map [entry "vg" (node "lvm_vg" [entry "lvs" (.map [entry "half" (node "lvm_lv"
        [entry "size" (.text "1G"), entry "content" (node "mdraid" [entry "name" (.text "md")])])])])]),
      entry "disk" (.map [
        entry "b" (node "disk" [entry "device" (.text "/dev/sdb"), entry "content" (node "luks"
          [entry "name" (.text "crypt"), member])]),
        entry "a" (node "disk" [entry "device" (.text "/dev/sda"), entry "content" (node "table"
          [entry "partitions" (.list [node "partition" [member], node "partition" [member]])])])])]
    ∃ l m groups, (Layout.read tree).outcome = .ok l ∧ l.metadata = .ok m ∧ l.nestedMetadata = .ok m ∧
      Metadata.dependencies m = .map groups ∧ l.Tells groups ∧
      l.feeding .volumeGroup "vg" = [⟨"disk", "b"⟩, ⟨"disk", "a"⟩] ∧ l.feeding .array "md" = [⟨"lvm_vg", "vg"⟩] := by
  intro member tree
  have hchecked : (Layout.read tree).outcome.toOption.map (fun l =>
      (l.nodes.all (fun n => n.spec.membership?.all (·.2.isText)), l.devices.all (fun d => d.node.spec.kind != .array),
        l.feeding .volumeGroup "vg", l.feeding .array "md")) =
      some (true, true, [⟨"disk", "b"⟩, ⟨"disk", "a"⟩], [⟨"lvm_vg", "vg"⟩]) := by decide +kernel
  obtain ⟨l, hl, hchecked⟩ := Option.map_eq_some_iff.1 hchecked
  replace hl := eq_ok_of_toOption hl
  obtain ⟨hnames, hchecked⟩ := Prod.mk.inj hchecked
  obtain ⟨harrays, hchecked⟩ := Prod.mk.inj hchecked
  obtain ⟨hgroup, harray⟩ := Prod.mk.inj hchecked
  have hmembers (n : Node) (hn : n ∈ l.nodes) (m : Group × Value) (hm : n.spec.membership? = some m) :
      m.2.isText = true := by
    have hall := List.all_eq_true.1 hnames n hn
    rwa [hm] at hall
  -- no device is an array
  have hpaths (d : Device) (hd : d ∈ l.devices) : d.node.HasPath := by
    intro name level metadata hspec
    have harray := List.all_eq_true.1 harrays d hd
    rw [hspec] at harray
    cases harray
  obtain ⟨m, groups, hm, hnested, hgroups, htells, -⟩ := (dependencies_exact hl hmembers).2 hpaths
  exact ⟨l, m, groups, hl, hm, hnested, hgroups, htells, hgroup, harray⟩

/-- An array that holds a swap device is named by a number of too many digits: no metadata says that nothing feeds it. -/
theorem no_metadata_of_overlong_name :
    let tree : Value := .map [entry "mdadm" (.map [entry "md" (node "mdadm"
      [entry "name" (.int (Double.pow10 Text.maxDigits)), entry "content" (node "swap" [])])])]
    ∃ l, (Layout.read tree).outcome = .ok l ∧ (∀ n ∈ l.nodes, n.spec.membership? = none) ∧
      l.metadata = .error (.misuse .unwritable) := by
  intro tree
  have hchecked : (Layout.read tree).outcome.toOption.map (fun l =>
      (l.nodes.all (·.spec.membership?.isNone), l.metadata.toOption.isNone)) = some (true, true) := by decide +kernel
  obtain ⟨l, hl, hchecked⟩ := Option.map_eq_some_iff.1 hchecked
  obtain ⟨hnodes, hmetadata⟩ := Prod.mk.inj hchecked
  have hmember (n : Node) (hn : n ∈ l.nodes) : n.spec.membership? = none :=
    Option.isNone_iff_eq_none.1 (List.all_eq_true.1 hnodes n hn)
  refine ⟨l, eq_ok_of_toOption hl, hmember, ?_⟩
  have hnames (d : Device) (hd : d ∈ l.devices) (m : Group × Value) (hm : m ∈ d.node.memberships) : m.2.isText = true := by
    rw [Node.memberships_eq_filterMap] at hm
    obtain ⟨n, hn, hm⟩ := List.mem_filterMap.1 hm
    cases (hmember n (Layout.mem_nodes_iff.2 ⟨d, hd, hn⟩)).symm.trans hm
  obtain ⟨-, hok⟩ | ⟨-, hfault⟩ := Layout.metadata_cases hnames
  · rw [hok] at hmetadata
    cases hmetadata
  · exact hfault

end Provision
