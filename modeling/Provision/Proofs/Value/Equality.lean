import Mathlib.Data.List.Forall2
import Provision.Value.Basic
/-!
# Equality of values

Two values are the same by what they stand for.  Numbers stand for a multiple of the smallest double or, where they are not
finite, for themselves (`Number.same_iff`): a finite double is known by its sign and its size, but for the two zeros.
So equality of values is transitive (`same_trans`), and on keys it is an equivalence (`same_symm`, `same_refl`).
-/
namespace Provision

namespace Double

theorem pow2_pos (n : Nat) : 0 < pow2 n := Nat.pow_pos (by decide)

theorem pow2_ne_zero (n : Nat) : pow2 n ≠ 0 := Nat.ne_of_gt (pow2_pos n)

theorem pow2_add (m n : Nat) : pow2 (m + n) = pow2 m * pow2 n := Nat.pow_add ..

theorem pow2_le {m n : Nat} (h : m ≤ n) : pow2 m ≤ pow2 n := Nat.pow_le_pow_right (by decide) h

/-- The absolute value of a finite number, as a multiple of `2 ^ -1074`. -/
def size (x : Double) : Nat := x.significand * pow2 x.scale

theorem fraction_lt (x : Double) : x.fraction < pow2 52 := Nat.mod_lt _ (pow2_pos 52)

theorem size_lt {x y : Double} (h : x.exponentField < y.exponentField) : x.size < y.size := by
  have hy : pow2 52 * pow2 (y.exponentField - 1) ≤ y.size := by
    rw [size, significand, if_neg (by omega), scale]
    exact Nat.mul_le_mul_right _ (Nat.le_add_right _ _)
  refine Nat.lt_of_lt_of_le ?_ hy
  have hx := x.fraction_lt
  rw [size, significand, scale]
  split
  case isTrue h0 =>
    rw [h0]
    exact Nat.mul_lt_mul_of_lt_of_le hx (pow2_le (Nat.zero_le _)) (pow2_pos _)
  case isFalse h0 =>
    have hsum : pow2 52 + x.fraction < pow2 52 * pow2 1 := by
      rw [show pow2 1 = 2 from rfl, Nat.mul_two]
      exact Nat.add_lt_add_left hx _
    calc (pow2 52 + x.fraction) * pow2 (x.exponentField - 1)
        < pow2 52 * pow2 1 * pow2 (x.exponentField - 1) := Nat.mul_lt_mul_of_pos_right hsum (pow2_pos _)
      _ = pow2 52 * pow2 (1 + (x.exponentField - 1)) := by rw [pow2_add, Nat.mul_assoc]
      _ ≤ pow2 52 * pow2 (y.exponentField - 1) := Nat.mul_le_mul_left _ (pow2_le (by omega))

theorem eq_of_fields_eq {x y : Double} (hsign : x.isNegative = y.isNegative) (he : x.exponentField = y.exponentField)
    (hf : x.fraction = y.fraction) : x = y := by
  obtain ⟨a⟩ := x
  obtain ⟨b⟩ := y
  have ha := a.toNat_lt
  have hb := b.toNat_lt
  refine congrArg Double.mk (UInt64.toNat_inj.1 ?_)
  rw [isNegative, isNegative, Bool.eq_iff_iff, beq_iff_eq, beq_iff_eq] at hsign
  simp only [exponentField, fraction, show pow2 63 = 9223372036854775808 from rfl, show pow2 52 = 4503599627370496 from rfl,
    show pow2 11 = 2048 from rfl] at hsign he hf
  omega

theorem eq_of_size_eq {x y : Double} (hsign : x.isNegative = y.isNegative) (h : x.size = y.size) : x = y := by
  have he : x.exponentField = y.exponentField := by
    rcases Nat.lt_trichotomy x.exponentField y.exponentField with hlt | heq | hlt
    · exact absurd h (Nat.ne_of_lt (size_lt hlt))
    · exact heq
    · exact absurd h (Nat.ne_of_gt (size_lt hlt))
  have hsig : x.significand = y.significand := by
    rw [size, size, scale, scale, he] at h
    exact Nat.eq_of_mul_eq_mul_right (pow2_pos _) h
  rw [significand, significand, he] at hsig
  refine eq_of_fields_eq hsign he ?_
  split at hsig <;> omega

theorem size_eq_zero_iff {x : Double} : x.size = 0 ↔ x.significand = 0 := by
  rw [size, Nat.mul_eq_zero, or_iff_left (pow2_ne_zero _)]

theorem bits_inj {x y : Double} : x.bits = y.bits ↔ x = y :=
  ⟨fun h => congrArg Double.mk h, congrArg Double.bits⟩

/-- Finite numbers are the same exactly where they stand for the same multiple of `2 ^ -1074`. -/
theorem same_iff_of_isFinite {x y : Double} (hx : x.isFinite = true) (hy : y.isFinite = true) :
    x.same y = true ↔ x.toRatio.1 = y.toRatio.1 := by
  have hratio (z : Double) : z.toRatio.1 = if z.isNegative then -(z.size : Int) else z.size := rfl
  have hzero {z : Double} (hz : z.isFinite = true) : z.isZero = true ↔ z.size = 0 := by
    simp [isZero, hz, size_eq_zero_iff]
  rw [same, Bool.or_eq_true, Bool.and_eq_true, beq_iff_eq, bits_inj, hzero hx, hzero hy, hratio, hratio]
  constructor
  · rintro (rfl | ⟨h, h'⟩)
    · rfl
    · simp [h, h']
  · intro h
    by_cases hsign : x.isNegative = y.isNegative
    · refine .inl (eq_of_size_eq hsign ?_)
      rw [hsign] at h
      split at h <;> omega
    · -- a number and its negative are equal only where both are zero
      refine .inr ?_
      split at h <;> split at h <;> first | omega | simp_all

theorem same_iff_eq {x y : Double} (h : x.isFinite = false ∨ y.isFinite = false) : x.same y = true ↔ x = y := by
  have hzero : (x.isZero && y.isZero) = false := by
    rcases h with h | h <;> simp [isZero, h]
  rw [same, hzero, Bool.or_false, beq_iff_eq, bits_inj]

end Double

namespace Value

namespace Number

open Double (pow2 pow2_ne_zero)

/-- What a number stands for: a multiple of `2 ^ -1074`, or an infinity or no number at all. -/
def denoted : Number → Int ⊕ Double
  | int n => .inl (n * pow2 1074)
  | float x => if x.isFinite then .inl x.toRatio.1 else .inr x

theorem equalsInt_iff {x : Double} {n : Int} : x.equalsInt n = true ↔ (float x).denoted = (int n).denoted := by
  have hequals : x.equalsInt n = (x.isFinite && x.toRatio.1 == n * pow2 1074) := rfl
  rw [hequals, denoted, denoted]
  cases x.isFinite with
  | false => simp only [Bool.false_and, Bool.false_eq_true, if_false, reduceCtorEq]
  | true => simp only [Bool.true_and, if_true, beq_iff_eq, Sum.inl.injEq]

/-- **Numbers are the same where they stand for the same.** -/
theorem same_iff {m n : Number} : m.same n = true ↔ m.denoted = n.denoted := by
  match m, n with
  | int a, int b =>
    have hpow : (pow2 1074 : Int) ≠ 0 := Int.natCast_ne_zero.2 (pow2_ne_zero 1074)
    rw [same, denoted, denoted, beq_iff_eq, Sum.inl.injEq, Int.mul_eq_mul_right_iff hpow]
  | int a, float y => rw [same, equalsInt_iff, eq_comm]
  | float x, int b => exact equalsInt_iff
  | float x, float y =>
    rw [same, denoted, denoted]
    by_cases hfinite : x.isFinite = true ∧ y.isFinite = true
    · simp [hfinite, Double.same_iff_of_isFinite hfinite.1 hfinite.2]
    · have hother : x.isFinite = false ∨ y.isFinite = false := by
        rwa [not_and_or, Bool.not_eq_true, Bool.not_eq_true] at hfinite
      rw [Double.same_iff_eq hother]
      refine ⟨fun h => by rw [h], fun h => ?_⟩
      split at h <;> split at h <;> simp_all

end Number

/-- What a value that holds no others stands for. -/
inductive Scalar where
  | null
  | number (denoted : Int ⊕ Double)
  | text (s : String)
  | date (d : Date)
  | timestamp (isZoned : Bool) (instant : Int)
  | bytes (bs : List UInt8)

def scalar? : Value → Option Scalar
  | null => some .null
  | text s => some (.text s)
  | date d => some (.date d)
  | timestamp t => some (.timestamp t.offset.isSome t.instant)
  | bytes bs => some (.bytes bs)
  | v => v.number?.map (fun n => .number n.denoted)

theorem sameScalar_iff {v w : Value} : sameScalar v w = true ↔ v.scalar?.isSome = true ∧ v.scalar? = w.scalar? := by
  cases v <;> cases w <;> simp [sameScalar, scalar?, number?, Number.same_iff, Timestamp.same]

theorem same_scalar_iff {v w : Value} {s : Scalar} (hv : v.scalar? = some s) : same v w = true ↔ w.scalar? = some s := by
  have hsame : same v w = sameScalar v w := by
    cases v <;> simp [same, scalar?, number?] at hv ⊢
  rw [hsame, sameScalar_iff, hv]
  simp [eq_comm]

theorem same_list_iff {xs : List Value} {v : Value} :
    same (list xs) v = true ↔ ∃ ys, v = list ys ∧ sameItems xs ys = true := by
  cases v <;> simp [same, sameScalar, number?]

theorem same_pair_iff {k k' v : Value} :
    same (pair k k') v = true ↔ ∃ l l', v = pair l l' ∧ same k l = true ∧ same k' l' = true := by
  cases v <;> simp [same, sameScalar, number?]

theorem same_set_iff {xs : List Value} {v : Value} :
    same (set xs) v = true ↔ ∃ ys, v = set ys ∧ xs.length = ys.length ∧ foundIn xs ys = true := by
  cases v <;> simp [same, sameScalar, number?]

theorem same_map_iff {es : Entries} {v : Value} :
    same (map es) v = true ↔ ∃ fs, v = map fs ∧ es.length = fs.length ∧ sameEntries es fs = true := by
  cases v <;> simp [same, sameScalar, number?]

theorem sameItems_nil_iff {ys : List Value} : sameItems [] ys = true ↔ ys = [] := by
  cases ys <;> simp [sameItems]

theorem sameItems_cons_iff {x : Value} {xs ys : List Value} :
    sameItems (x :: xs) ys = true ↔ ∃ z zs, ys = z :: zs ∧ same x z = true ∧ sameItems xs zs = true := by
  cases ys <;> simp [sameItems]

theorem foundIn_iff {xs ys : List Value} : foundIn xs ys = true ↔ ∀ x ∈ xs, ∃ y ∈ ys, same x y = true := by
  induction xs with
  | nil => simp [foundIn]
  | cons x xs ih => simp [foundIn, ih]

theorem sameEntries_iff {es fs : Entries} :
    sameEntries es fs = true ↔ ∀ e ∈ es, ∃ f ∈ fs, same e.1 f.1 = true ∧ same e.2 f.2 = true := by
  induction es with
  | nil => simp [sameEntries]
  | cons e es ih =>
    obtain ⟨k, v⟩ := e
    simp [sameEntries, ih]

mutual

/-- **Equality of values is transitive.** -/
theorem same_trans : ∀ {u v w : Value}, same u v = true → same v w = true → same u w = true
  | list xs, v, w, h, h' => by
    obtain ⟨ys, rfl, hys⟩ := same_list_iff.1 h
    obtain ⟨zs, rfl, hzs⟩ := same_list_iff.1 h'
    exact same_list_iff.2 ⟨zs, rfl, sameItems_trans hys hzs⟩
  | pair k k', v, w, h, h' => by
    obtain ⟨l, l', rfl, hl, hl'⟩ := same_pair_iff.1 h
    obtain ⟨m, m', rfl, hm, hm'⟩ := same_pair_iff.1 h'
    exact same_pair_iff.2 ⟨m, m', rfl, same_trans hl hm, same_trans hl' hm'⟩
  | set xs, v, w, h, h' => by
    obtain ⟨ys, rfl, hlen, hys⟩ := same_set_iff.1 h
    obtain ⟨zs, rfl, hlen', hzs⟩ := same_set_iff.1 h'
    exact same_set_iff.2 ⟨zs, rfl, hlen.trans hlen', foundIn_trans hys hzs⟩
  | map es, v, w, h, h' => by
    obtain ⟨fs, rfl, hlen, hfs⟩ := same_map_iff.1 h
    obtain ⟨gs, rfl, hlen', hgs⟩ := same_map_iff.1 h'
    exact same_map_iff.2 ⟨gs, rfl, hlen.trans hlen', sameEntries_trans hfs hgs⟩
  | null, _, _, h, h' | bool _, _, _, h, h' | int _, _, _, h, h' | float _, _, _, h, h' | text _, _, _, h, h'
  | date _, _, _, h, h' | timestamp _, _, _, h, h' | bytes _, _, _, h, h' =>
    (same_scalar_iff rfl).2 ((same_scalar_iff ((same_scalar_iff rfl).1 h)).1 h')
termination_by structural u => u

theorem sameItems_trans : ∀ {xs ys zs : List Value}, sameItems xs ys = true → sameItems ys zs = true →
    sameItems xs zs = true
  | [], _, _, h, h' => by
    rw [sameItems_nil_iff.1 h] at h'
    exact h'
  | x :: xs, _, _, h, h' => by
    obtain ⟨y, ys, rfl, hy, hys⟩ := sameItems_cons_iff.1 h
    obtain ⟨z, zs, rfl, hz, hzs⟩ := sameItems_cons_iff.1 h'
    exact sameItems_cons_iff.2 ⟨z, zs, rfl, same_trans hy hz, sameItems_trans hys hzs⟩
termination_by structural xs => xs

theorem foundIn_trans : ∀ {xs ys zs : List Value}, foundIn xs ys = true → foundIn ys zs = true → foundIn xs zs = true
  | [], _, _, _, _ => by simp [foundIn]
  | x :: xs, ys, zs, h, h' => by
    obtain ⟨⟨y, hy, hxy⟩, hxs⟩ := List.forall_mem_cons.1 (foundIn_iff.1 h)
    obtain ⟨z, hz, hyz⟩ := foundIn_iff.1 h' y hy
    have ih := foundIn_trans (foundIn_iff.2 hxs) h'
    exact foundIn_iff.2 (List.forall_mem_cons.2 ⟨⟨z, hz, same_trans hxy hyz⟩, foundIn_iff.1 ih⟩)
termination_by structural xs => xs

theorem sameEntries_trans : ∀ {es fs gs : Entries}, sameEntries es fs = true → sameEntries fs gs = true →
    sameEntries es gs = true
  | [], _, _, _, _ => by simp [sameEntries]
  | (k, v) :: es, fs, gs, h, h' => by
    obtain ⟨⟨f, hf, hkf, hvf⟩, hes⟩ := List.forall_mem_cons.1 (sameEntries_iff.1 h)
    obtain ⟨g, hg, hkg, hvg⟩ := sameEntries_iff.1 h' f hf
    have ih := sameEntries_trans (sameEntries_iff.2 hes) h'
    exact sameEntries_iff.2 (List.forall_mem_cons.2
      ⟨⟨g, hg, same_trans hkf hkg, same_trans hvf hvg⟩, sameEntries_iff.1 ih⟩)
termination_by structural es => es

end

/-! ### Keys -/

theorem same_refl : ∀ {k : Value}, k.isKey = true → same k k = true
  | pair k k', h => by
    rw [isKey, Bool.and_eq_true] at h
    exact same_pair_iff.2 ⟨k, k', rfl, same_refl h.1, same_refl h.2⟩
  | null, _ | bool _, _ | int _, _ | float _, _ | text _, _ | date _, _ | timestamp _, _ | bytes _, _ =>
    (same_scalar_iff rfl).2 rfl

theorem same_symm : ∀ {k v : Value}, k.isKey = true → same k v = true → same v k = true
  | pair k k', v, hk, h => by
    rw [isKey, Bool.and_eq_true] at hk
    obtain ⟨l, l', rfl, hl, hl'⟩ := same_pair_iff.1 h
    exact same_pair_iff.2 ⟨k, k', rfl, same_symm hk.1 hl, same_symm hk.2 hl'⟩
  | null, _, _, h | bool _, _, _, h | int _, _, _, h | float _, _, _, h | text _, _, _, h | date _, _, _, h
  | timestamp _, _, _, h | bytes _, _, _, h =>
    (same_scalar_iff ((same_scalar_iff rfl).1 h)).2 rfl

theorem isKey_of_same : ∀ {v k : Value}, k.isKey = true → same v k = true → v.isKey = true
  | pair v v', k, hk, h => by
    obtain ⟨l, l', rfl, hl, hl'⟩ := same_pair_iff.1 h
    rw [isKey, Bool.and_eq_true] at hk ⊢
    exact ⟨isKey_of_same hk.1 hl, isKey_of_same hk.2 hl'⟩
  | list _, _, hk, h => by
    obtain ⟨_, rfl, -⟩ := same_list_iff.1 h
    exact hk
  | set _, _, hk, h => by
    obtain ⟨_, rfl, -⟩ := same_set_iff.1 h
    exact hk
  | map _, _, hk, h => by
    obtain ⟨_, rfl, -⟩ := same_map_iff.1 h
    exact hk
  | null, _, _, _ | bool _, _, _, _ | int _, _, _, _ | float _, _, _, _ | text _, _, _, _ | date _, _, _, _
  | timestamp _, _, _, _ | bytes _, _, _, _ => rfl

/-- **Equality with a key is symmetric.** -/
theorem same_comm_of_isKey {k : Value} (hk : k.isKey = true) (v : Value) : same k v = same v k := by
  rw [Bool.eq_iff_iff]
  exact ⟨same_symm hk, fun h => same_symm (isKey_of_same hk h) h⟩

theorem same_congr {k l : Value} (hk : k.isKey = true) (h : same k l = true) (v : Value) : same k v = same l v := by
  rw [Bool.eq_iff_iff]
  exact ⟨same_trans (same_symm hk h), same_trans h⟩

end Value

end Provision
