import Mathlib.Data.List.Induction
import Provision.Compile
import Provision.Proofs.Traced
/-!
# What metadata states

Metadata is nested: under `dependencies` stands a mapping of groups, in it of aggregates, and under each of these the list
of the devices that hold its members.  Merging loses no fact and adds none, level by level (`Collects`), so the edges that
the metadata of a layout states are exactly those of its members (`Layout.mem_edges_iff`).
-/
namespace Provision

namespace Value

theorem same_text_iff {s : String} {v : Value} : same (.text s) v = true ↔ v = .text s := by
  cases v <;> simp [same, sameScalar, number?]
  exact eq_comm

theorem same_eq_text_iff {s : String} {v : Value} : same v (.text s) = true ↔ v = .text s := by
  cases v <;> simp [same, sameScalar, number?]

end Value

namespace DeviceRef

theorem ofValue?_eq_some_iff {v : Value} {r : DeviceRef} : ofValue? v = some r ↔ v = r.toValue := by
  constructor
  · intro h
    unfold ofValue? at h
    split at h
    · cases h; rfl
    · cases h
  · rintro rfl
    exact ofValue?_toValue r

theorem toValue_injective {r s : DeviceRef} (h : r.toValue = s.toValue) : r = s :=
  Option.some.inj (by rw [← ofValue?_toValue r, ← ofValue?_toValue s, h])

theorem same_toValue_iff {r s : DeviceRef} : Value.same r.toValue s.toValue = true ↔ r = s := by
  obtain ⟨g, n⟩ := r
  obtain ⟨h, m⟩ := s
  simp [toValue, Value.same, Value.sameItems, Value.sameScalar]

end DeviceRef

namespace Metadata

open Value (Entries)

variable {α : Type}

/-- **Values that hold facts, and keep exactly these when they are joined.** -/
structure Collects (shape : Value → Prop) (holds : Value → α → Prop) : Prop where
  shape_join : ∀ {v w : Value}, shape v → shape w → shape (join v w)
  holds_join : ∀ {v w : Value} {a : α}, shape v → shape w → (holds (join v w) a ↔ holds v a ∨ holds w a)

def IsDevices (v : Value) : Prop := ∃ rs : List DeviceRef, v = .list (rs.map DeviceRef.toValue)

def Lists (v : Value) (r : DeviceRef) : Prop := ∃ xs, v = .list xs ∧ r.toValue ∈ xs

theorem lists_map_toValue {rs : List DeviceRef} {r : DeviceRef} : Lists (.list (rs.map DeviceRef.toValue)) r ↔ r ∈ rs := by
  simp only [Lists, Value.list.injEq, exists_eq_left', List.mem_map]
  constructor
  · rintro ⟨t, ht, e⟩
    exact DeviceRef.toValue_injective e ▸ ht
  · intro h
    exact ⟨r, h, rfl⟩

theorem join_devices (rs ss : List DeviceRef) :
    join (.list (rs.map DeviceRef.toValue)) (.list (ss.map DeviceRef.toValue)) =
      .list ((rs ++ ss.filter (fun s => !rs.any (fun r => Value.same s.toValue r.toValue))).map DeviceRef.toValue) := by
  simp [join, List.filter_map, Function.comp_def]

theorem collects_devices : Collects IsDevices Lists where
  shape_join := by
    rintro _ _ ⟨rs, rfl⟩ ⟨ss, rfl⟩
    exact ⟨_, join_devices rs ss⟩
  holds_join := by
    rintro _ _ a ⟨rs, rfl⟩ ⟨ss, rfl⟩
    rw [join_devices, lists_map_toValue, lists_map_toValue, lists_map_toValue]
    simp only [List.mem_append, List.mem_filter, Bool.not_eq_true', List.any_eq_false, DeviceRef.same_toValue_iff]
    by_cases h : a ∈ rs
    · simp [h]
    · simp only [h, false_or, and_iff_left_iff_imp]
      rintro _ r hr rfl
      exact h hr

def IsMapOf (shape : Value → Prop) (v : Value) : Prop := ∃ es, v = .map es ∧ ∀ e ∈ es, shape e.2

theorem isMapOf_singleton {shape : Value → Prop} {k v : Value} (hv : shape v) : IsMapOf shape (.map [(k, v)]) :=
  ⟨_, rfl, fun e he => by rw [List.mem_singleton.1 he]; exact hv⟩

/-- What some entry with a text for a key holds. -/
def Under (holds : Value → α → Prop) (v : Value) (f : String × α) : Prop :=
  ∃ es w, v = .map es ∧ (.text f.1, w) ∈ es ∧ holds w f.2

theorem under_nil {holds : Value → α → Prop} {f : String × α} : ¬ Under holds (.map []) f := by
  simp [Under]

theorem under_cons {holds : Value → α → Prop} {e : Value × Value} {es : Entries} {f : String × α} :
    Under holds (.map (e :: es)) f ↔ e.1 = .text f.1 ∧ holds e.2 f.2 ∨ Under holds (.map es) f := by
  obtain ⟨k, v⟩ := e
  simp only [Under, Value.map.injEq, ↓existsAndEq, true_and, List.mem_cons, Prod.mk.injEq]
  constructor
  · rintro ⟨w, ⟨rfl, rfl⟩ | hw, hh⟩
    · exact .inl ⟨rfl, hh⟩
    · exact .inr ⟨w, hw, hh⟩
  · rintro (⟨rfl, hh⟩ | ⟨w, hw, hh⟩)
    · exact ⟨v, .inl ⟨rfl, rfl⟩, hh⟩
    · exact ⟨w, .inr hw, hh⟩

/-- **Writing a value into entries, joined with what is there**, adds the facts of the value. -/
theorem under_put {shape : Value → Prop} {holds : Value → α → Prop} (h : Collects shape holds) {k v : Value} (hv : shape v) :
    ∀ {base : Entries}, (∀ e ∈ base, shape e.2) →
      let joined := match Entries.get? base k with
        | some current => join current v
        | none => v
      (∀ e ∈ Entries.put base k joined, shape e.2) ∧ ∀ f : String × α,
        Under holds (.map (Entries.put base k joined)) f ↔ Under holds (.map base) f ∨ k = .text f.1 ∧ holds v f.2
  | [], _ => by
    refine ⟨fun e he => by rw [List.mem_singleton.1 he]; exact hv, fun f => ?_⟩
    simp [Entries.put, Entries.get?, under_cons, under_nil]
  | e :: es, hbase => by
    have he : shape e.2 := hbase e List.mem_cons_self
    have hes (x : Value × Value) (hx : x ∈ es) : shape x.2 := hbase x (List.mem_cons_of_mem _ hx)
    by_cases hk : Value.same k e.1 = true
    · have hget : Entries.get? (e :: es) k = some e.2 := by simp [Entries.get?, hk]
      -- a text is only the same as itself
      have hkey (s : String) : e.1 = .text s ↔ k = .text s := by
        constructor <;> intro hs <;> rw [hs] at hk
        · exact Value.same_eq_text_iff.1 hk
        · exact Value.same_text_iff.1 hk
      simp only [hget, Entries.put, hk, if_true]
      refine ⟨fun x hx => ?_, fun f => ?_⟩
      · rcases List.mem_cons.1 hx with rfl | hx
        · exact h.shape_join he hv
        · exact hes x hx
      · rw [under_cons, under_cons, h.holds_join he hv, hkey]
        tauto
    · have hget : Entries.get? (e :: es) k = Entries.get? es k := by simp [Entries.get?, hk]
      obtain ⟨ihshape, ih⟩ := under_put h hv hes
      simp only [hget, Entries.put, hk, Bool.false_eq_true, if_false]
      refine ⟨fun x hx => ?_, fun f => ?_⟩
      · rcases List.mem_cons.1 hx with rfl | hx
        · exact he
        · exact ihshape x hx
      · rw [under_cons, under_cons, ih, or_assoc]

theorem under_merge {shape : Value → Prop} {holds : Value → α → Prop} (h : Collects shape holds) :
    ∀ {update base : Entries}, (∀ e ∈ base, shape e.2) → (∀ e ∈ update, shape e.2) →
      (∀ e ∈ merge base update, shape e.2) ∧ ∀ f : String × α,
        Under holds (.map (merge base update)) f ↔ Under holds (.map base) f ∨ Under holds (.map update) f
  | [], base, hbase, _ => by
    rw [merge]
    exact ⟨hbase, fun f => by simp [under_nil]⟩
  | (k, v) :: rest, base, hbase, hupdate => by
    obtain ⟨hshape, hput⟩ := under_put h (k := k) (v := v) (hupdate (k, v) List.mem_cons_self) hbase
    obtain ⟨hmerged, hmerge⟩ := under_merge h hshape (fun e he => hupdate e (List.mem_cons_of_mem _ he))
    rw [merge]
    exact ⟨hmerged, fun f => (hmerge f).trans (by rw [hput, under_cons, or_assoc])⟩

/-- **Mappings collect what their values collect.** -/
theorem Collects.mapOf {shape : Value → Prop} {holds : Value → α → Prop} (h : Collects shape holds) :
    Collects (IsMapOf shape) (Under holds) where
  shape_join := by
    rintro _ _ ⟨es, rfl, hes⟩ ⟨fs, rfl, hfs⟩
    rw [join]
    exact ⟨_, rfl, (under_merge h hes hfs).1⟩
  holds_join := by
    rintro _ _ a ⟨es, rfl, hes⟩ ⟨fs, rfl, hfs⟩
    rw [join]
    exact (under_merge h hes hfs).2 a

/-- What the metadata of members looks like: nothing, or only dependencies. -/
def IsDependencies (m : Entries) : Prop :=
  m = [] ∨ ∃ v, m = [(.text "dependencies", v)] ∧ IsMapOf (IsMapOf IsDevices) v

def States (m : Entries) (e : Edge) : Prop :=
  Under (Under (Under Lists)) (.map m) ("dependencies", e.consumer.group, e.consumer.name, e.producer)

theorem collects_dependencies : Collects (IsMapOf (IsMapOf IsDevices)) (Under (Under Lists)) := collects_devices.mapOf.mapOf

theorem IsDependencies.shape {m : Entries} (h : IsDependencies m) : ∀ e ∈ m, IsMapOf (IsMapOf IsDevices) e.2 := by
  obtain rfl | ⟨v, rfl, hv⟩ := h
  · exact fun e he => by cases he
  · exact fun e he => by rw [List.mem_singleton.1 he]; exact hv

theorem IsDependencies.merge {m n : Entries} (hm : IsDependencies m) (hn : IsDependencies n) :
    IsDependencies (merge m n) ∧ ∀ e, States (Metadata.merge m n) e ↔ States m e ∨ States n e := by
  obtain ⟨hshape, hstates⟩ := under_merge collects_dependencies hm.shape hn.shape
  refine ⟨?_, fun e => hstates _⟩
  obtain rfl | ⟨v, rfl, hv⟩ := hn
  · rwa [merge_nil]
  · obtain rfl | ⟨w, rfl, hw⟩ := hm
    · exact .inr ⟨v, by simp [Metadata.merge, Entries.put, Entries.get?], hv⟩
    · refine .inr ⟨join w v, ?_, collects_dependencies.shape_join hw hv⟩
      simp [Metadata.merge, Entries.put, Entries.get?, Value.same_text_iff]

/-- **Merging parts of metadata** states what the parts state. -/
theorem states_mergeAll {parts : List Entries} (h : ∀ p ∈ parts, IsDependencies p) :
    IsDependencies (mergeAll parts) ∧ ∀ e, States (mergeAll parts) e ↔ ∃ p ∈ parts, States p e := by
  induction parts using List.reverseRecOn with
  | nil => exact ⟨.inl rfl, fun e => by simp [mergeAll, States, under_nil]⟩
  | append_singleton parts p ih =>
    obtain ⟨ihshape, ih⟩ := ih (fun q hq => h q (List.mem_append_left _ hq))
    obtain ⟨hshape, hmerge⟩ := ihshape.merge (h p (List.mem_append_right _ List.mem_cons_self))
    rw [mergeAll_concat]
    refine ⟨hshape, fun e => ?_⟩
    rw [hmerge, ih]
    simp [or_and_right, exists_or]

theorem mem_edges_ofValue_iff {v : Value} {e : Edge} :
    e ∈ (Requirement.ofValue v).flatMap Requirement.edges ↔
      Under (Under Lists) v (e.consumer.group, e.consumer.name, e.producer) := by
  constructor
  · intro h
    obtain ⟨r, hr, he⟩ := List.mem_flatMap.1 h
    obtain ⟨p, hp, rfl⟩ := List.mem_map.1 he
    unfold Requirement.ofValue at hr
    split at hr
    · obtain ⟨g, hg, hr⟩ := List.mem_flatMap.1 hr
      unfold Requirement.ofGroup at hr
      split at hr
      · obtain ⟨a, ha, hr⟩ := List.mem_filterMap.1 hr
        unfold Requirement.forAggregate? at hr
        split at hr
        · cases hr
          obtain ⟨x, hx, hxp⟩ := List.mem_filterMap.1 hp
          obtain rfl := DeviceRef.ofValue?_eq_some_iff.1 hxp
          exact ⟨_, _, rfl, hg, _, _, rfl, ha, _, rfl, hx⟩
        · cases hr
      · cases hr
    · cases hr
  · rintro ⟨groups, _, rfl, hg, aggregates, _, rfl, ha, xs, rfl, hx⟩
    refine List.mem_flatMap.2 ⟨⟨e.consumer, xs.filterMap DeviceRef.ofValue?⟩, ?_, ?_⟩
    · exact List.mem_flatMap.2 ⟨_, hg, List.mem_filterMap.2 ⟨_, ha, rfl⟩⟩
    · exact List.mem_map.2 ⟨e.producer, List.mem_filterMap.2 ⟨_, hx, DeviceRef.ofValue?_toValue _⟩, rfl⟩

theorem mem_edges_iff {m : Entries} (h : IsDependencies m) {e : Edge} :
    e ∈ (requirements m).flatMap Requirement.edges ↔ States m e := by
  rw [requirements, mem_edges_ofValue_iff]
  obtain rfl | ⟨v, rfl, -⟩ := h
  · simp [Entries.field, Entries.get?, States, Under]
  · simp [Entries.field, Entries.get?, States, under_cons, under_nil, Value.same_text_iff]

theorem states_dependency {group : String} {name : Value} {producer : DeviceRef} {m : Entries}
    (h : dependency group name producer.toValue = .ok m) :
    IsDependencies m ∧ ∀ e : Edge, States m e ↔
      e.consumer.group = group ∧ name = .text e.consumer.name ∧ e.producer = producer := by
  unfold dependency at h
  split at h
  · cases h
    refine ⟨.inr ⟨_, rfl, isMapOf_singleton (isMapOf_singleton ⟨[producer], rfl⟩)⟩, fun e => ?_⟩
    have hlists (p : DeviceRef) : Lists (.list [producer.toValue]) p ↔ p = producer :=
      (lists_map_toValue).trans List.mem_singleton
    simp only [States, under_cons, under_nil, or_false, true_and, Value.text.injEq, hlists, eq_comm (a := group)]
  · cases h

/-- **Metadata that is merged from parts** states what each part states. -/
theorem states_mapM {β : Type} {f : β → Except Fault Entries} {Q : β → Edge → Prop} {xs : List β} {parts : List Entries}
    (hf : ∀ x ∈ xs, ∀ m, f x = .ok m → IsDependencies m ∧ ∀ e, States m e ↔ Q x e) (h : xs.mapM f = .ok parts) :
    IsDependencies (mergeAll parts) ∧ ∀ e, States (mergeAll parts) e ↔ ∃ x ∈ xs, Q x e := by
  have hparts : (∀ p ∈ parts, IsDependencies p) ∧ ∀ e, (∃ p ∈ parts, States p e) ↔ ∃ x ∈ xs, Q x e := by
    rw [except_mapM_eq_ok_iff] at h
    induction h with
    | nil => simp
    | @cons x p xs ps hxp _ ih =>
      obtain ⟨ihshape, ih⟩ := ih (fun y hy => hf y (List.mem_cons_of_mem _ hy))
      obtain ⟨hshape, hstates⟩ := hf x List.mem_cons_self p hxp
      exact ⟨List.forall_mem_cons.2 ⟨hshape, ihshape⟩, fun e => by simp [hstates, ih]⟩
  obtain ⟨hshape, hstates⟩ := states_mergeAll hparts.1
  exact ⟨hshape, fun e => (hstates e).trans (hparts.2 e)⟩

end Metadata

theorem Node.states_metadata {n : Node} {parent : DeviceRef} {m : Value.Entries} (h : n.metadata (some parent) = .ok m) :
    Metadata.IsDependencies m ∧ ∀ e, Metadata.States m e ↔
      ∃ f ∈ n.memberships, e.consumer.group = f.1.name ∧ f.2 = .text e.consumer.name ∧ e.producer = parent := by
  unfold metadata at h
  obtain ⟨_, -, h⟩ := except_bind_eq_ok_iff.1 h
  obtain ⟨parts, hparts, h⟩ := except_bind_eq_ok_iff.1 h
  cases h
  exact Metadata.states_mapM (fun f _ p hp => Metadata.states_dependency hp) hparts

theorem Layout.exists_fact {l : Layout} {m : Value.Entries} (h : l.metadata = .ok m) {d : Device} (hd : d ∈ l.devices)
    {f : Group × Value} (hf : f ∈ d.node.memberships) :
      ∃ fact, Metadata.dependency f.1.name f.2 d.ref.toValue = .ok fact := by
  obtain ⟨parts, hparts, -⟩ := except_bind_eq_ok_iff.1 h
  obtain ⟨part, hpart⟩ := exists_of_except_mapM hparts hd
  obtain ⟨_, -, hpart⟩ := except_bind_eq_ok_iff.1 hpart
  obtain ⟨facts, hfacts, -⟩ := except_bind_eq_ok_iff.1 hpart
  exact exists_of_except_mapM hfacts hf

/-- **The edges that the metadata of a layout requires** lead from each device to the aggregates that its members name, by
a text. -/
theorem Layout.mem_edges_iff {l : Layout} {m : Value.Entries} (h : l.metadata = .ok m) {e : Edge} :
    e ∈ (Metadata.requirements m).flatMap Requirement.edges ↔
      ∃ d ∈ l.devices, ∃ f ∈ d.node.memberships,
        e.consumer.group = f.1.name ∧ f.2 = .text e.consumer.name ∧ e.producer = d.ref := by
  unfold metadata at h
  obtain ⟨parts, hparts, h⟩ := except_bind_eq_ok_iff.1 h
  cases h
  obtain ⟨hshape, hstates⟩ := Metadata.states_mapM (fun d _ p hp => Node.states_metadata hp) hparts
  rw [Metadata.mem_edges_iff hshape, hstates]

end Provision
