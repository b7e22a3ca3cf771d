import Provision.Proofs.Value.Keyed
/-!
# What stands at a path of keys

Below a mapping stands what is under its keys, and so on (`Value.at?`).  Merging tells mappings, lists and all else apart
(`Value.shape`): two values are `Alike` where at every path at which both have something, both have the same of these three.
Whether they are can be decided key by key (`isAlike_iff`).
-/
namespace Provision.Value

/-- What merging tells apart. -/
inductive Shape where
  | mapping | list | other
  deriving DecidableEq

def shape : Value → Shape
  | map _ => .mapping
  | list _ => .list
  | _ => .other

theorem shape_eq_mapping_iff {v : Value} : v.shape = .mapping ↔ ∃ es, v = map es := by
  cases v <;> simp [shape]

theorem shape_eq_list_iff {v : Value} : v.shape = .list ↔ ∃ xs, v = list xs := by
  cases v <;> simp [shape]

mutual

/-- **Induction along keys**: from what stands under the keys of a mapping to the mapping. -/
@[elab_as_elim]
theorem induction_get? {P : Value → Prop}
    (mapping : ∀ es : Entries, (∀ k v, Entries.get? es k = some v → P v) → P (map es))
    (list : ∀ xs : List Value, P (.list xs)) (other : ∀ v : Value, v.shape = .other → P v) : ∀ v : Value, P v
  | map es => mapping es (fun k v h => by
      obtain ⟨e, he, -, rfl⟩ := Entries.exists_of_get? h
      exact induction_of_mem mapping list other es e he)
  | .list xs => list xs
  | null | bool _ | int _ | float _ | text _ | date _ | timestamp _ | bytes _ | pair _ _ | set _ => other _ rfl

theorem induction_of_mem {P : Value → Prop}
    (mapping : ∀ es : Entries, (∀ k v, Entries.get? es k = some v → P v) → P (map es))
    (list : ∀ xs : List Value, P (.list xs)) (other : ∀ v : Value, v.shape = .other → P v) :
    ∀ es : Entries, ∀ e ∈ es, P e.2
  | (k, v) :: es, e, he => by
    rcases List.mem_cons.1 he with rfl | he
    · exact induction_get? mapping list other v
    · exact induction_of_mem mapping list other es e he

end

/-- What stands in a value at a path of keys. -/
def at? : Value → List Value → Option Value
  | v, [] => some v
  | map es, k :: path => (Entries.get? es k).bind (fun v => v.at? path)
  | _, _ :: _ => none

theorem at?_cons_of_ne {v : Value} (h : v.shape ≠ .mapping) (k : Value) (path : List Value) : v.at? (k :: path) = none := by
  cases v <;> first | rfl | exact absurd rfl h

/-- Values of one shape at every path at which both have something. -/
def Alike (v w : Value) : Prop := ∀ path x y, v.at? path = some x → w.at? path = some y → x.shape = y.shape

namespace Alike

variable {v w : Value}

theorem refl (v : Value) : Alike v v := fun path x y hx hy => by
  rw [Option.some.inj (hx.symm.trans hy)]

theorem symm (h : Alike v w) : Alike w v := fun path x y hx hy => (h path y x hy hx).symm

theorem shape_eq (h : Alike v w) : v.shape = w.shape := h [] v w rfl rfl

theorem map_iff {es fs : Entries} : Alike (map es) (map fs) ↔
    ∀ k v w, Entries.get? es k = some v → Entries.get? fs k = some w → Alike v w := by
  constructor
  · intro h k v w hv hw path x y hx hy
    refine h (k :: path) x y ?_ ?_
    · rwa [at?, hv]
    · rwa [at?, hw]
  · intro h path x y hx hy
    cases path with
    | nil =>
      cases hx
      cases hy
      rfl
    | cons k path =>
      obtain ⟨v, hv, hx⟩ := Option.bind_eq_some_iff.1 hx
      obtain ⟨w, hw, hy⟩ := Option.bind_eq_some_iff.1 hy
      exact h k v w hv hw path x y hx hy

theorem of_get? {es fs : Entries} (h : Alike (map es) (map fs)) {k : Value} (hv : Entries.get? es k = some v)
    (hw : Entries.get? fs k = some w) : Alike v w := map_iff.1 h k v w hv hw

theorem map_nil (es : Entries) : Alike (map []) (map es) := map_iff.2 (fun _ _ _ hv => by cases hv)

end Alike

/-! ### Deciding whether values are alike -/

mutual

def isAlike : Value → Value → Bool
  | map es, map fs => areAlike es fs
  | v, w => v.shape == w.shape

def areAlike : List (Value × Value) → Entries → Bool
  | [], _ => true
  | (k, v) :: es, fs => (match Entries.get? fs k with
    | some w => isAlike v w
    | none => true) && areAlike es fs

end

theorem isAlike_of_ne {v w : Value} (h : v.shape ≠ .mapping ∨ w.shape ≠ .mapping) :
    isAlike v w = (v.shape == w.shape) := by
  unfold isAlike
  split
  · simp [shape] at h
  · rfl

theorem alike_of_ne_iff {v w : Value} (h : v.shape ≠ .mapping ∨ w.shape ≠ .mapping) : Alike v w ↔ v.shape = w.shape := by
  refine ⟨Alike.shape_eq, fun hvw path x y hx hy => ?_⟩
  cases path with
  | nil =>
    cases Option.some.inj hx
    cases Option.some.inj hy
    exact hvw
  | cons k path =>
    have hv : v.shape ≠ .mapping := h.elim id (fun hw => hvw ▸ hw)
    rw [at?_cons_of_ne hv] at hx
    cases hx

theorem areAlike_iff {es fs : Entries} :
    areAlike es fs = true ↔ ∀ e ∈ es, ∀ w, Entries.get? fs e.1 = some w → isAlike e.2 w = true := by
  induction es with
  | nil => simp [areAlike]
  | cons e es ih =>
    obtain ⟨k, v⟩ := e
    rw [areAlike, Bool.and_eq_true, ih, List.forall_mem_cons]
    cases Entries.get? fs k <;> simp

/-- **Whether values are alike is decided key by key**, where the first has each key once. -/
theorem isAlike_iff {v : Value} : ∀ {w : Value}, v.isKeyed = true → (isAlike v w = true ↔ Alike v w) := by
  induction v using induction_get? with
  | mapping es ih =>
    intro w hes
    by_cases hw : w.shape = .mapping
    · obtain ⟨fs, rfl⟩ := shape_eq_mapping_iff.1 hw
      obtain ⟨hkeys, -⟩ := isKeyed_map_iff.1 hes
      rw [isAlike, areAlike_iff, Alike.map_iff]
      constructor
      · intro h k v w hv hw
        obtain ⟨e, he, hke, rfl⟩ := Entries.exists_of_get? hv
        have hkey : e.1.isKey = true := hkeys.isKey _ (List.mem_map_of_mem he)
        rw [← Entries.get?_congr hkey (by rwa [same_comm_of_isKey hkey])] at hw
        exact (ih k e.2 hv (isKeyed_of_get? hes hv)).1 (h e he w hw)
      · intro h e he w hw
        have hv := Entries.get?_of_mem hkeys he
        exact (ih e.1 e.2 hv (isKeyed_of_get? hes hv)).2 (h e.1 e.2 w hv hw)
    · rw [isAlike_of_ne (.inr hw), alike_of_ne_iff (.inr hw), beq_iff_eq]
  | list xs =>
    intro w _
    have hne : (list xs).shape ≠ .mapping := nofun
    rw [isAlike_of_ne (.inl hne), alike_of_ne_iff (.inl hne), beq_iff_eq]
  | other v hv =>
    intro w _
    have hne : v.shape ≠ .mapping := hv ▸ nofun
    rw [isAlike_of_ne (.inl hne), alike_of_ne_iff (.inl hne), beq_iff_eq]

end Provision.Value
