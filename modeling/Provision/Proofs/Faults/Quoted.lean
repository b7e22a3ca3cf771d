import Mathlib.Algebra.Order.Ring.Nat
import Provision.Proofs.Faults.Kinds
import Provision.Yaml.Scalar
/-!
# What is wrong with a scalar between quotes

A scalar between double quotes is no YAML, or it has an escape that names no character: eight digits of a number beyond the
last one.  `Stumbles` follows the reading to the first such escape, and a scalar ends in a misuse exactly where there is one
(`quotedFrom_eq_misuse_iff`).  Between single quotes there are no escapes.
-/
namespace Provision

open Fault (IsReading IsUnparsable)

namespace Yaml

/-! ## Digits -/

theorem lt_of_hexDigit? {c : Char} {d : Nat} (h : Text.hexDigit? c = some d) : d < 16 := by
  unfold Text.hexDigit? at h
  split at h
  · rename_i hc
    simp only [Char.isDigit, ge_iff_le, Bool.and_eq_true, decide_eq_true_eq] at hc
    have : c.toNat ≤ 57 := hc.2
    simp at h
    omega
  · split at h
    · rename_i hc
      have : c.toNat ≤ 102 := hc.2
      simp at h
      omega
    · split at h
      · rename_i hc
        have : c.toNat ≤ 70 := hc.2
        simp at h
        omega
      · cases h

theorem ofDigits_lt {b : Nat} {ds : List Nat} (h : ∀ d ∈ ds, d < b) : Text.ofDigits b ds < b ^ ds.length := by
  have hfrom (k : Nat) : ds.foldl (fun n d => n * b + d) k < (k + 1) * b ^ ds.length := by
    induction ds generalizing k with
    | nil => simp
    | cons d ds ih =>
      obtain ⟨hd, hds⟩ := List.forall_mem_cons.1 h
      rw [List.foldl_cons, List.length_cons, Nat.pow_succ']
      calc ds.foldl (fun n d => n * b + d) (k * b + d) < (k * b + d + 1) * b ^ ds.length := ih hds _
        _ ≤ ((k + 1) * b) * b ^ ds.length := Nat.mul_le_mul_right _ (by rw [Nat.add_mul, Nat.one_mul]; omega)
        _ = (k + 1) * (b * b ^ ds.length) := Nat.mul_assoc _ _ _
  simpa [Text.ofDigits] using hfrom 0

/-! ## Escapes -/

/-- **An escape that names no character**, behind its backslash: eight digits of a number beyond the last one. -/
def NamesNone (s : List Char) (m : Misuse) : Prop :=
  ∃ digits after ds, s = 'U' :: (digits ++ after) ∧ digits.length = 8 ∧ digits.map Text.hexDigit? = ds.map some ∧
    0x110000 ≤ Text.ofDigits 16 ds ∧ m = if 0x80000000 ≤ Text.ofDigits 16 ds then .outOfRange else .misread .noCharacter

theorem unitOf_eq_misuse_iff {digits : List Char} {width : Nat} {m : Misuse} : unitOf digits width = .error (.misuse m) ↔
    ∃ ds, digits.map Text.hexDigit? = ds.map some ∧ width ≤ ds.length ∧ 0x110000 ≤ Text.ofDigits 16 ds ∧
      m = if 0x80000000 ≤ Text.ofDigits 16 ds then .outOfRange else .misread .noCharacter := by
  unfold unitOf
  split
  · rename_i ds hds
    have hsame (es : List Nat) : digits.map Text.hexDigit? = es.map some ↔ es = ds := by
      rw [← option_mapM_eq_some_iff, hds, Option.some.injEq, eq_comm]
    simp only [hsame, exists_eq_left]
    grind
  · rename_i hds
    refine iff_of_false (fun h => nomatch h) ?_
    rintro ⟨ds, h, -⟩
    rw [← option_mapM_eq_some_iff, hds] at h
    cases h

theorem escape_of_width {c : Char} {width : Nat} {rest : List Char} {m : Misuse} (hc : escapes.lookup c = none)
    (hw : escapeWidth? c = some width) :
    escape (c :: rest) = .error (.misuse m) ↔ ∃ ds, (rest.take width).map Text.hexDigit? = ds.map some ∧
      width ≤ ds.length ∧ 0x110000 ≤ Text.ofDigits 16 ds ∧
      m = if 0x80000000 ≤ Text.ofDigits 16 ds then .outOfRange else .misread .noCharacter := by
  rw [← unitOf_eq_misuse_iff]
  simp only [escape, hc, hw]
  cases unitOf (rest.take width) width <;> simp [bind, Except.bind, pure, Except.pure]

theorem escape_ne_misuse {c : Char} {rest : List Char} {m : Misuse}
    (hc : escapes.lookup c ≠ none ∨ escapeWidth? c = none) : escape (c :: rest) ≠ .error (.misuse m) := by
  unfold escape
  dsimp only
  split
  · exact fun h => nomatch h
  · rename_i hnone hsome
    exact hc.elim (fun h => absurd hnone h) (fun h => nomatch h.symm.trans hsome)
  · split
    · split <;> exact fun h => nomatch h
    · exact fun h => nomatch h

/-- A number of up to four digits is not beyond the last character. -/
theorem ofDigits_lt_of_width {width : Nat} (hw : width ≤ 4) {ds : List Nat} {rest : List Char}
    (h : (rest.take width).map Text.hexDigit? = ds.map some) : Text.ofDigits 16 ds < 0x110000 := by
  have hlength : ds.length ≤ 4 := by
    have := congrArg List.length h
    simp only [List.length_map, List.length_take] at this
    omega
  calc Text.ofDigits 16 ds < 16 ^ ds.length := ofDigits_lt fun d hd => by
        obtain ⟨c, -, hc⟩ := List.mem_map.1 (h ▸ List.mem_map_of_mem hd : some d ∈ (rest.take width).map Text.hexDigit?)
        exact lt_of_hexDigit? hc
    _ ≤ 16 ^ 4 := Nat.pow_le_pow_right (by omega) hlength
    _ ≤ 0x110000 := by omega

theorem width_le_of_ne {c : Char} {width : Nat} (hc : c ≠ 'U') (hw : escapeWidth? c = some width) : width ≤ 4 := by
  unfold escapeWidth? at hw
  split at hw
  case h_3 => exact absurd rfl hc
  all_goals cases hw
  all_goals omega

theorem escape_eq_misuse_iff {s : List Char} {m : Misuse} : escape s = .error (.misuse m) ↔ NamesNone s m := by
  match s with
  | [] => exact iff_of_false (fun h => nomatch h) (by rintro ⟨digits, after, ds, h, -⟩; cases h)
  | c :: rest =>
    by_cases hU : c = 'U'
    · subst hU
      rw [escape_of_width rfl rfl]
      constructor
      · rintro ⟨ds, hds, hlength, h⟩
        refine ⟨rest.take 8, rest.drop 8, ds, by rw [List.take_append_drop], ?_, hds, h⟩
        have := congrArg List.length hds
        simp only [List.length_map, List.length_take] at this ⊢
        omega
      · rintro ⟨digits, after, ds, hs, hlength, hds, h⟩
        obtain rfl : rest = digits ++ after := (List.cons.inj hs).2
        rw [List.take_append_of_le_length (by omega), List.take_of_length_le (by omega)]
        refine ⟨ds, hds, ?_, h⟩
        have := congrArg List.length hds
        simp only [List.length_map] at this
        omega
    · refine iff_of_false ?_ (by rintro ⟨digits, after, ds, h, -⟩; exact hU (List.cons.inj h).1)
      by_cases hc : escapes.lookup c = none
      · cases hw : escapeWidth? c with
        | none => exact escape_ne_misuse (.inr hw)
        | some width =>
          rw [escape_of_width hc hw]
          rintro ⟨ds, hds, -, hlow, -⟩
          exact absurd (ofDigits_lt_of_width (width_le_of_ne hU hw) hds) (Nat.not_lt.2 hlow)
      · exact escape_ne_misuse (.inl hc)

/-! ## Scalars -/

/-- **A scalar between double quotes in which the reading comes to an escape that names no character.** -/
inductive Stumbles (m : Misuse) : List Char → Prop
  | here {s : List Char} (h : NamesNone s m) : Stumbles m ('\\' :: s)
  /-- It goes over another escape. -/
  | escape {s : List Char} {units : List Nat} {n : Nat} (hescape : escape s = .ok (units, n)) (h : Stumbles m (s.drop n)) :
      Stumbles m ('\\' :: s)
  /-- It goes over white space, behind which the document does not end. -/
  | gap {c : Char} {s : List Char} (hgap : isGap c = true)
      (hmark : endsDocument (c :: s.takeWhile isGap) (s.dropWhile isGap) = false) (h : Stumbles m (s.dropWhile isGap)) :
      Stumbles m (c :: s)
  /-- It goes over a character that stands for itself. -/
  | char {c : Char} {s : List Char} (hescape : c ≠ '\\') (hquote : c ≠ '"') (hgap : isGap c = false) (h : Stumbles m s) :
      Stumbles m (c :: s)

namespace Stumbles

variable {m : Misuse} {c : Char} {s : List Char}

theorem ne_nil (h : Stumbles m s) : s ≠ [] := by
  cases h <;> exact List.cons_ne_nil _ _

theorem escape_iff : Stumbles m ('\\' :: s) ↔
    NamesNone s m ∨ ∃ units n, Yaml.escape s = .ok (units, n) ∧ Stumbles m (s.drop n) := by
  constructor
  · intro h
    cases h with
    | here h => exact .inl h
    | escape hescape h => exact .inr ⟨_, _, hescape, h⟩
    | gap hgap => exact absurd hgap (by decide)
    | char hescape => exact absurd rfl hescape
  · rintro (h | ⟨units, n, hescape, h⟩)
    · exact .here h
    · exact .escape hescape h

theorem not_quote : ¬ Stumbles m ('"' :: s) := by
  intro h
  cases h with
  | gap hgap => exact absurd hgap (by decide)
  | char _ hquote => exact hquote rfl

theorem gap_iff (hgap : isGap c = true) : Stumbles m (c :: s) ↔
    endsDocument (c :: s.takeWhile isGap) (s.dropWhile isGap) = false ∧ Stumbles m (s.dropWhile isGap) := by
  constructor
  · intro h
    cases h with
    | here | escape => exact absurd hgap (by decide)
    | gap _ hmark h => exact ⟨hmark, h⟩
    | char _ _ h => exact absurd hgap (by simp [h])
  · exact fun ⟨hmark, h⟩ => .gap hgap hmark h

theorem char_iff (hescape : c ≠ '\\') (hquote : c ≠ '"') (hgap : isGap c = false) : Stumbles m (c :: s) ↔ Stumbles m s := by
  constructor
  · intro h
    cases h with
    | here | escape => exact absurd rfl hescape
    | gap h => exact absurd h (by simp [hgap])
    | char _ _ _ h => exact h
  · exact .char hescape hquote hgap

theorem ne_endless (h : Stumbles m s) : m ≠ .endless := by
  induction h with
  | here h =>
    obtain ⟨_, _, ds, -, -, -, -, rfl⟩ := h
    split <;> simp
  | escape _ _ ih | gap _ _ _ ih | char _ _ _ _ ih => exact ih

end Stumbles

theorem drop_length_takeWhile {α : Type} (p : α → Bool) (xs : List α) :
    xs.drop (xs.takeWhile p).length = xs.dropWhile p := by
  calc xs.drop (xs.takeWhile p).length
      = (xs.takeWhile p ++ xs.dropWhile p).drop (xs.takeWhile p).length := by rw [List.takeWhile_append_dropWhile]
    _ = xs.dropWhile p := List.drop_left

/-- **A scalar between double quotes** ends in a misuse where its text stumbles. -/
theorem quotedFrom_eq_misuse_iff {read : List Nat} {c : Cursor} {m : Misuse} :
    quotedFrom true read c = .error (.misuse m) ↔ Stumbles m c.rest := by
  generalize hdouble : true = double
  fun_induction quotedFrom double read c
  case case1 hrest =>
    exact iff_of_false (fun h => nomatch h) fun h => h.ne_nil hrest
  case case2 hrest hch e hescape =>
    rw [hrest]
    obtain rfl : _ = '\\' := by simpa [← hdouble] using hch
    rw [Stumbles.escape_iff, ← escape_eq_misuse_iff, hescape]
    simp
  case case3 hrest hch units n hescape ih =>
    obtain rfl : _ = '\\' := by simpa [← hdouble] using hch
    rw [ih, hrest, Stumbles.escape_iff, ← escape_eq_misuse_iff, hescape, Cursor.rest_skip, hrest]
    simp
  case case4 hrest _ hch =>
    obtain rfl : _ = '"' := by simpa [← hdouble] using hch
    rw [hrest]
    exact iff_of_false (fun h => nomatch h) Stumbles.not_quote
  case case5 => simp_all
  case case6 => simp_all
  case case7 hrest _ _ _ hgap _ next hend =>
    rw [hrest, Stumbles.gap_iff hgap]
    refine iff_of_false (fun h => nomatch h) fun ⟨hmark, h⟩ => ?_
    rw [Cursor.rest_skip, hrest, List.drop_succ_cons, drop_length_takeWhile] at hend
    obtain hend | hend := hend
    · exact h.ne_nil hend
    · exact absurd (hmark.symm.trans hend) Bool.false_ne_true
  case case8 hrest _ _ _ hgap _ next hend ih =>
    rw [Cursor.rest_skip, hrest, List.drop_succ_cons, drop_length_takeWhile, not_or, Bool.not_eq_true] at hend
    rw [ih, hrest, Stumbles.gap_iff hgap, Cursor.rest_skip, hrest, List.drop_succ_cons, drop_length_takeWhile]
    exact (and_iff_right hend.2).symm
  case case9 hrest hescape hquote _ hgap ih =>
    rw [ih, Cursor.rest_skip, hrest, List.drop_one, List.tail_cons, Stumbles.char_iff]
    · simpa [← hdouble] using hescape
    · simpa [← hdouble] using hquote
    · simpa using hgap

theorem failsIn_quotedFrom_single (read : List Nat) (c : Cursor) : FailsIn IsUnparsable (quotedFrom false read c) := by
  generalize hdouble : false = double
  fun_induction quotedFrom double read c <;> simp_all

@[grind .] theorem failsIn_unitOf (digits : List Char) (width : Nat) : FailsIn IsReading (unitOf digits width) := by
  grind [unitOf]

@[grind .] theorem failsIn_escape (s : List Char) : FailsIn IsReading (escape s) := by
  fun_cases escape s <;> grind

@[grind .] theorem failsIn_quotedFrom (double : Bool) (read : List Nat) (c : Cursor) :
    FailsIn IsReading (quotedFrom double read c) := by
  fun_induction quotedFrom double read c
  case case2 hescape => exact FailsIn.error_iff.2 ((failsIn_escape _).of_eq_error hescape)
  all_goals grind

end Yaml

end Provision
