import Provision.Value.Basic
/-!
# Values written alike

Equality of values as they are written, which is finer than the equality by which mappings find their entries: `1`, `1.0` and
`true` are three values here.  It can be decided, so statements about the values of a layout can be evaluated.
-/
namespace Provision.Value

mutual

def identical : Value → Value → Bool
  | null, null => true
  | bool a, bool b => a == b
  | int m, int n => m == n
  | float x, float y => x == y
  | text s, text t => s == t
  | date d, date e => d == e
  | timestamp s, timestamp t => s == t
  | bytes a, bytes b => a == b
  | list xs, list ys => identicalItems xs ys
  | pair k v, pair k' v' => identical k k' && identical v v'
  | set xs, set ys => identicalItems xs ys
  | map es, map fs => identicalEntries es fs
  | _, _ => false

def identicalItems : List Value → List Value → Bool
  | [], [] => true
  | x :: xs, y :: ys => identical x y && identicalItems xs ys
  | _, _ => false

def identicalEntries : List (Value × Value) → List (Value × Value) → Bool
  | [], [] => true
  | (k, v) :: es, (k', v') :: fs => identical k k' && identical v v' && identicalEntries es fs
  | _, _ => false

end

mutual

theorem identical_iff : ∀ v w : Value, identical v w = true ↔ v = w
  | list xs, w => by cases w <;> simp [identical, identicalItems_iff xs]
  | pair k v, w => by cases w <;> simp [identical, identical_iff k, identical_iff v]
  | set xs, w => by cases w <;> simp [identical, identicalItems_iff xs]
  | map es, w => by cases w <;> simp [identical, identicalEntries_iff es]
  | null, w | bool _, w | int _, w | float _, w | text _, w | date _, w | timestamp _, w | bytes _, w => by
    cases w <;> simp [identical]

theorem identicalItems_iff : ∀ xs ys : List Value, identicalItems xs ys = true ↔ xs = ys
  | [], ys => by cases ys <;> simp [identicalItems]
  | x :: xs, ys => by cases ys <;> simp [identicalItems, identical_iff x, identicalItems_iff xs]

theorem identicalEntries_iff : ∀ es fs : List (Value × Value), identicalEntries es fs = true ↔ es = fs
  | [], fs => by cases fs <;> simp [identicalEntries]
  | (k, v) :: es, fs => by
    cases fs <;> simp [identicalEntries, identical_iff k, identical_iff v, identicalEntries_iff es, Prod.ext_iff]

end

instance : DecidableEq Value := fun v w => decidable_of_iff _ (identical_iff v w)

end Provision.Value
