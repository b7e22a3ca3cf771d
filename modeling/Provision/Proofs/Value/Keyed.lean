import Mathlib.Tactic.Tauto
import Provision.Proofs.Value.Equality
/-!
# Mappings with each key once

A mapping has each of its keys once, and so has every mapping under its keys (`Value.isKeyed`).  Values that follow
others, but for those that are there, are `adjoin`ed: so the keys of two mappings are put together, and the items of two
lists.  Adjoining is associative since equality is transitive (`adjoin_assoc`).  Mappings with the same keys in the same
order are equal where all look-ups agree (`Entries.ext_of_get?`).
-/
namespace Provision.Value

/-- The values of the second list that are not in the first, behind it. -/
def adjoin (xs ys : List Value) : List Value := xs ++ ys.filter (fun y => !xs.any (same y))

theorem adjoin_nil (xs : List Value) : adjoin xs [] = xs := List.append_nil xs

theorem adjoin_singleton (xs : List Value) (v : Value) :
    adjoin xs [v] = if xs.any (same v) then xs else xs ++ [v] := by
  cases h : xs.any (same v) <;> simp [adjoin, h]

theorem any_same_adjoin {v : Value} {xs ys : List Value} :
    (adjoin xs ys).any (same v) = (xs.any (same v) || ys.any (same v)) := by
  rw [adjoin, List.any_append]
  cases hx : xs.any (same v) with
  | true => rfl
  | false =>
    rw [Bool.false_or, Bool.false_or, Bool.eq_iff_iff, List.any_eq_true, List.any_eq_true]
    constructor
    · rintro ⟨y, hy, hvy⟩
      exact ⟨y, (List.mem_filter.1 hy).1, hvy⟩
    · rintro ⟨y, hy, hvy⟩
      refine ⟨y, List.mem_filter.2 ⟨hy, ?_⟩, hvy⟩
      rw [Bool.not_eq_true', List.any_eq_false]
      intro z hz hyz
      exact List.any_eq_false.1 hx z hz (same_trans hvy hyz)

/-- **Adjoining is associative**: what is the same as an adjoined value that was left out is the same as what is there. -/
theorem adjoin_assoc (xs ys zs : List Value) : adjoin (adjoin xs ys) zs = adjoin xs (adjoin ys zs) := by
  have hfilter : zs.filter (fun z => !(adjoin xs ys).any (same z)) =
      (zs.filter (fun z => !ys.any (same z))).filter (fun z => !xs.any (same z)) := by
    rw [List.filter_filter]
    exact List.filter_congr (fun z _ => by rw [any_same_adjoin, Bool.not_or])
  rw [adjoin, hfilter, adjoin, adjoin, adjoin, List.filter_append, List.append_assoc]

/-- **Keys of a mapping**: none is there twice. -/
structure AreKeys (ks : List Value) : Prop where
  isKey : ∀ k ∈ ks, k.isKey = true
  once : ks.Pairwise (fun k l => same k l = false)

theorem AreKeys.nil : AreKeys [] := ⟨nofun, .nil⟩

theorem areKeys_cons_iff {k : Value} {ks : List Value} :
    AreKeys (k :: ks) ↔ (k.isKey = true ∧ ∀ l ∈ ks, same k l = false) ∧ AreKeys ks := by
  constructor
  · rintro ⟨hkey, honce⟩
    obtain ⟨hk, hks⟩ := List.forall_mem_cons.1 hkey
    obtain ⟨hl, hls⟩ := List.pairwise_cons.1 honce
    exact ⟨⟨hk, hl⟩, hks, hls⟩
  · rintro ⟨⟨hk, hl⟩, hks, hls⟩
    exact ⟨List.forall_mem_cons.2 ⟨hk, hks⟩, List.pairwise_cons.2 ⟨hl, hls⟩⟩

theorem AreKeys.adjoin {ks ls : List Value} (hks : AreKeys ks) (hls : AreKeys ls) : AreKeys (adjoin ks ls) := by
  refine ⟨fun k hk => ?_, List.pairwise_append.2 ⟨hks.once, hls.once.filter _, fun k hk l hl => ?_⟩⟩
  · rcases List.mem_append.1 hk with hk | hk
    · exact hks.isKey k hk
    · exact hls.isKey k (List.mem_filter.1 hk).1
  · obtain ⟨hl, hnew⟩ := List.mem_filter.1 hl
    rw [same_comm_of_isKey (hks.isKey k hk)]
    exact Bool.eq_false_iff.2 fun h => by
      rw [List.any_eq_true.2 ⟨k, hk, h⟩] at hnew
      cases hnew

namespace Entries

variable {α : Type}

def keys (es : List (Value × α)) : List Value := es.map Prod.fst

@[simp] theorem keys_nil : keys ([] : List (Value × α)) = [] := rfl

@[simp] theorem keys_cons (e : Value × α) (es : List (Value × α)) : keys (e :: es) = e.1 :: keys es := rfl

@[simp] theorem get?_nil (k : Value) : get? ([] : List (Value × α)) k = none := rfl

theorem get?_cons (e : Value × α) (es : List (Value × α)) (k : Value) :
    get? (e :: es) k = if same k e.1 then some e.2 else get? es k := by
  by_cases h : same k e.1 = true <;> simp [get?, h]

theorem get?_eq_none_iff {es : List (Value × α)} {k : Value} : get? es k = none ↔ (keys es).any (same k) = false := by
  simp [get?, keys]

theorem exists_of_get? {es : List (Value × α)} {k : Value} {v : α} (h : get? es k = some v) :
    ∃ e ∈ es, same k e.1 = true ∧ e.2 = v := by
  obtain ⟨e, he, rfl⟩ := Option.map_eq_some_iff.1 h
  exact ⟨e, List.mem_of_find?_eq_some he, by simpa using List.find?_some he, rfl⟩

theorem get?_congr {k l : Value} (hk : k.isKey = true) (h : same k l = true) (es : List (Value × α)) :
    get? es k = get? es l := by
  rw [get?, get?, funext (fun e : Value × α => same_congr hk h e.1)]

theorem get?_of_mem {es : List (Value × α)} (hes : AreKeys (keys es)) {e : Value × α} (he : e ∈ es) :
    get? es e.1 = some e.2 := by
  induction es with
  | nil => cases he
  | cons f es ih =>
    obtain ⟨⟨hf, hnew⟩, hes⟩ := areKeys_cons_iff.1 hes
    rw [get?_cons]
    rcases List.mem_cons.1 he with rfl | he
    · rw [same_refl hf, if_pos rfl]
    · have hkey : e.1 ∈ keys es := List.mem_map_of_mem he
      rw [same_comm_of_isKey (hes.isKey e.1 hkey), hnew e.1 hkey, if_neg Bool.false_ne_true, ih hes he]

/-- **Mappings with the same keys in the same order are equal where all look-ups agree.** -/
theorem ext_of_get? : ∀ {es fs : List (Value × α)}, AreKeys (keys es) → keys es = keys fs →
    (∀ k ∈ keys es, get? es k = get? fs k) → es = fs
  | [], [], _, _, _ => rfl
  | e :: es, f :: fs, h, hkeys, hget => by
    obtain ⟨⟨he, hnew⟩, hes⟩ := areKeys_cons_iff.1 h
    obtain ⟨hef, hkeys⟩ := List.cons.inj hkeys
    have hhead : e = f := by
      have := hget e.1 List.mem_cons_self
      rw [get?_cons, get?_cons, ← hef, same_refl he, if_pos rfl, if_pos rfl] at this
      exact Prod.ext hef (Option.some.inj this)
    have htail : es = fs := ext_of_get? hes hkeys (fun k hk => by
      have := hget k (List.mem_cons_of_mem _ hk)
      have hold : same k e.1 = false := by rw [same_comm_of_isKey (hes.isKey k hk), hnew k hk]
      rwa [get?_cons, get?_cons, ← hef, hold, if_neg Bool.false_ne_true, if_neg Bool.false_ne_true] at this)
    rw [hhead, htail]

theorem keys_put (es : List (Value × α)) (k : Value) (v : α) : keys (put es k v) = adjoin (keys es) [k] := by
  induction es with
  | nil => rfl
  | cons e es ih =>
    rw [put]
    split
    case isTrue h => simp [adjoin_singleton, h]
    case isFalse h =>
      rw [keys_cons, ih, adjoin_singleton, adjoin_singleton, keys_cons, List.any_cons, Bool.eq_false_iff.2 h, Bool.false_or]
      split <;> rfl

theorem areKeys_put {es : List (Value × α)} (hes : AreKeys (keys es)) {k : Value} (hk : k.isKey = true) (v : α) :
    AreKeys (keys (put es k v)) := by
  rw [keys_put]
  exact hes.adjoin (areKeys_cons_iff.2 ⟨⟨hk, nofun⟩, .nil⟩)

theorem get?_put {es : List (Value × α)} (hes : AreKeys (keys es)) {k : Value} (hk : k.isKey = true) (v : α) (l : Value) :
    get? (put es k v) l = if same l k then some v else get? es l := by
  induction es with
  | nil => rw [put, get?_cons]
  | cons e es ih =>
    obtain ⟨⟨he, -⟩, hes⟩ := areKeys_cons_iff.1 hes
    rw [put]
    split
    case isTrue h =>
      -- the written key and the one that is there find the same
      have hle : same l k = same l e.1 := by
        rw [← same_comm_of_isKey hk, ← same_comm_of_isKey he, same_congr hk h]
      rw [get?_cons, get?_cons, hle]
      split <;> rfl
    case isFalse h =>
      rw [get?_cons, get?_cons, ih hes]
      split
      case isTrue hle =>
        rw [if_neg]
        intro hlk
        exact h (same_trans ((same_comm_of_isKey hk l).trans hlk) hle)
      case isFalse => rfl

end Entries

/-! ### Values whose mappings have each key once -/

mutual

/-- Whether a mapping has each key once, and every mapping under its keys as well. -/
def isKeyed : Value → Bool
  | map es => areKeyed es
  | _ => true

def areKeyed : List (Value × Value) → Bool
  | [] => true
  | (k, v) :: es => k.isKey && es.all (fun e => !same k e.1) && isKeyed v && areKeyed es

end

theorem isKeyed_map_iff {es : Entries} :
    (map es).isKeyed = true ↔ AreKeys (Entries.keys es) ∧ ∀ e ∈ es, e.2.isKeyed = true := by
  rw [isKeyed]
  induction es with
  | nil => simp [areKeyed, AreKeys.nil]
  | cons e es ih =>
    obtain ⟨k, v⟩ := e
    rw [Entries.keys_cons, areKeys_cons_iff, areKeyed, Bool.and_eq_true, Bool.and_eq_true, Bool.and_eq_true, ih,
      List.forall_mem_cons]
    simp only [Entries.keys, List.all_eq_true, Bool.not_eq_true', List.forall_mem_map]
    tauto

theorem isKeyed_of_get? {es : Entries} (h : (map es).isKeyed = true) {k v : Value} (hv : Entries.get? es k = some v) :
    v.isKeyed = true := by
  obtain ⟨e, he, -, rfl⟩ := Entries.exists_of_get? hv
  exact (isKeyed_map_iff.1 h).2 e he

end Provision.Value
