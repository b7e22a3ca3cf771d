import Provision.Json.Reader
import Provision.Proofs.Faults.Kinds
/-!
# Integers of too many digits

An integer has a limit of digits, and a JSON text that exceeds it is neither read nor refused.  `Json.MeetsOverlong`
follows the reading to the first such integer, past all that can be read before it; these are exactly the texts that end
in a misuse (`Json.parse_eq_misuse_iff`).
-/
namespace Provision

open Fault (IsUnparsable)

namespace Json

/-! ## Numbers -/

def whole : List Char → List Char × List Char
  | '0' :: rest => (['0'], rest)
  | s => (s.takeWhile Char.isDigit, s.dropWhile Char.isDigit)

theorem number_eq (negative : Bool) (s : List Char) : number negative s =
    if (whole s).1 = [] then .error .unparsable
    else if (fraction (whole s).2).1 = [] ∧ (exponent (fraction (whole s).2).2).1 = none then
      if Text.maxDigits < (whole s).1.length then .error (.misuse (.misread (.tooManyDigits (whole s).1.length)))
      else
        let n : Int := Text.ofDigits 10 (digitsOf (whole s).1)
        .ok (.int (if negative then -n else n), (exponent (fraction (whole s).2).2).2)
    else
      .ok (.float (.ofDecimal negative (Text.ofDigits 10 (digitsOf ((whole s).1 ++ (fraction (whole s).2).1)))
        ((exponent (fraction (whole s).2).2).1.getD 0 - (fraction (whole s).2).1.length)),
        (exponent (fraction (whole s).2).2).2) :=
  rfl

/-- **An integer of too many digits**: it does not begin with a zero, and neither a fraction nor an exponent follows.  The
fault says how many digits there are. -/
structure IsOverlong (m : Misuse) (s : List Char) : Prop where
  head : s.head? ≠ some '0'
  digits : Text.maxDigits < (s.takeWhile Char.isDigit).length
  fraction : (fraction (s.dropWhile Char.isDigit)).1 = []
  exponent : (exponent (s.dropWhile Char.isDigit)).1 = none
  misuse : m = .misread (.tooManyDigits (s.takeWhile Char.isDigit).length)

theorem fraction_of_nil {s : List Char} (h : (fraction s).1 = []) : (fraction s).2 = s := by
  fun_cases fraction s
  · rename_i hd
    rw [fraction, if_pos hd] at h
    cases h
  · rfl
  · rfl

theorem number_eq_misuse_iff {negative : Bool} {s : List Char} {m : Misuse} :
    number negative s = .error (.misuse m) ↔ IsOverlong m s := by
  have hmisuse : number negative s = .error (.misuse m) ↔ (whole s).1 ≠ [] ∧ ((fraction (whole s).2).1 = [] ∧
      (exponent (fraction (whole s).2).2).1 = none) ∧ Text.maxDigits < (whole s).1.length ∧
        m = .misread (.tooManyDigits (whole s).1.length) := by
    rw [number_eq]
    split
    · exact iff_of_false (fun h => nomatch h) fun h => h.1 ‹_›
    · split
      · split
        · exact ⟨fun h => ⟨‹_›, ‹_›, ‹_›, by cases h; rfl⟩, fun h => by rw [h.2.2.2]⟩
        · exact iff_of_false (fun h => nomatch h) fun h => ‹¬_› h.2.2.1
      · exact iff_of_false (fun h => nomatch h) fun h => ‹¬_› h.2.1
  rw [hmisuse]
  by_cases hzero : s.head? = some '0'
  · obtain ⟨rest, rfl⟩ : ∃ rest, s = '0' :: rest := by
      cases s <;> simp_all
    have hone : ¬ Text.maxDigits < ['0'].length := by decide
    exact iff_of_false (fun h => hone h.2.2.1) fun h => h.head rfl
  · have hwhole : whole s = (s.takeWhile Char.isDigit, s.dropWhile Char.isDigit) := by
      unfold whole
      split
      · simp at hzero
      · rfl
    rw [hwhole]
    dsimp only
    constructor
    · rintro ⟨-, ⟨hfraction, hexponent⟩, hlength, hm⟩
      rw [fraction_of_nil hfraction] at hexponent
      exact ⟨hzero, hlength, hfraction, hexponent, hm⟩
    · rintro ⟨-, hlength, hfraction, hexponent, hm⟩
      rw [fraction_of_nil hfraction]
      exact ⟨List.ne_nil_of_length_pos (Nat.zero_lt_of_lt hlength), ⟨hfraction, hexponent⟩, hlength, hm⟩

theorem IsOverlong.isDigit {m : Misuse} {c : Char} {s : List Char} (h : IsOverlong m (c :: s)) : c.isDigit = true := by
  by_contra hc
  have hlength := h.digits
  rw [List.takeWhile_cons, if_neg hc] at hlength
  cases hlength

/-- The integer behind a sign, or without one. -/
def BeginsOverlong (m : Misuse) (s : List Char) : Prop := IsOverlong m s ∨ ∃ rest, s = '-' :: rest ∧ IsOverlong m rest

variable {m : Misuse}

theorem not_beginsOverlong {c : Char} {s : List Char} (hc : c.isDigit = false) (hminus : c ≠ '-') :
    ¬ BeginsOverlong m (c :: s) := by
  rintro (h | ⟨rest, h, -⟩)
  · exact absurd h.isDigit (by simp [hc])
  · exact hminus (List.cons.inj h).1

theorem beginsOverlong_minus {s : List Char} : BeginsOverlong m ('-' :: s) ↔ IsOverlong m s := by
  constructor
  · rintro (h | ⟨rest, h, h'⟩)
    · exact absurd h.isDigit (by decide)
    · rwa [(List.cons.inj h).2]
  · exact fun h => .inr ⟨s, rfl, h⟩

theorem not_beginsOverlong_of_literal {l : List Char × Value} (hl : l ∈ literals) (rest : List Char) :
    ¬ BeginsOverlong m (l.1 ++ rest) := by
  simp only [literals, List.mem_cons, List.not_mem_nil, or_false] at hl
  obtain rfl | rfl | rfl | rfl | rfl | rfl := hl
  case inr.inr.inr.inr.inr =>
    change ¬ BeginsOverlong m ('-' :: 'I' :: _)
    exact fun h => absurd (beginsOverlong_minus.1 h).isDigit (by decide)
  all_goals exact not_beginsOverlong (by decide) (by decide)

theorem scalar_eq_misuse_iff {s : List Char} : scalar s = .error (.misuse m) ↔ BeginsOverlong m s := by
  unfold scalar
  split
  · rename_i name v hfind
    have hmem := List.mem_of_find?_eq_some hfind
    have hprefix : name.isPrefixOf s = true := List.find?_some (p := fun l : List Char × Value => l.1.isPrefixOf s) hfind
    obtain ⟨rest, rfl⟩ := List.isPrefixOf_iff_prefix.1 hprefix
    exact iff_of_false (fun h => nomatch h) (not_beginsOverlong_of_literal hmem rest)
  · split
    · rw [number_eq_misuse_iff, beginsOverlong_minus]
    · rename_i hminus
      rw [number_eq_misuse_iff, BeginsOverlong, or_iff_left]
      rintro ⟨rest, rfl, -⟩
      exact hminus rest rfl

/-! ## What is left of a text -/

theorem length_skip_le (s : List Char) : (skip s).length ≤ s.length := (List.dropWhile_sublist _).length_le

theorem length_lt_of_skip {s more : List Char} {c : Char} (h : skip s = c :: more) : more.length < s.length := by
  have hskip := length_skip_le s
  rw [h] at hskip
  exact hskip

theorem length_skip_lt {s more : List Char} {c : Char} (h : skip s = c :: more) : (skip more).length < s.length :=
  Nat.lt_of_le_of_lt (length_skip_le more) (length_lt_of_skip h)

theorem length_fraction_le (s : List Char) : (fraction s).2.length ≤ s.length := by
  unfold fraction
  split
  · rename_i d rest
    split
    · have := (List.dropWhile_sublist Char.isDigit (l := rest)).length_le
      simp only [List.length_cons]
      omega
    · exact Nat.le_refl _
  · exact Nat.le_refl _

theorem length_exponent_le (s : List Char) : (exponent s).2.length ≤ s.length := by
  have hdigits (rest : List Char) : (rest.dropWhile Char.isDigit).length ≤ rest.length :=
    (List.dropWhile_sublist _).length_le
  have hread (negative : Bool) (rest : List Char) (hrest : rest.length ≤ s.length) :
      (if rest.takeWhile Char.isDigit = [] then ((none : Option Int), s)
       else (some (if negative then -((Text.ofDigits 10 (digitsOf (rest.takeWhile Char.isDigit)) : Nat) : Int)
          else (Text.ofDigits 10 (digitsOf (rest.takeWhile Char.isDigit)) : Nat)), rest.dropWhile Char.isDigit)).2.length ≤
        s.length := by
    split
    · exact Nat.le_refl _
    · exact Nat.le_trans (hdigits rest) hrest
  unfold exponent
  dsimp only
  split
  · split
    · split <;> exact hread _ _ (by simp <;> omega)
    · exact Nat.le_refl _
  · exact Nat.le_refl _

theorem gives_number (negative : Bool) (s : List Char) : Gives (fun r => r.2.length ≤ s.length) (number negative s) := by
  have hwhole : (whole s).2.length ≤ s.length := by
    unfold whole
    split
    · simp
    · exact (List.dropWhile_sublist _).length_le
  have hrest : (exponent (fraction (whole s).2).2).2.length ≤ s.length :=
    Nat.le_trans (length_exponent_le _) (Nat.le_trans (length_fraction_le _) hwhole)
  rw [number_eq]
  split
  · exact .error _
  · split
    · split
      · exact .error _
      · exact .ok hrest
    · exact .ok hrest

theorem gives_stringFrom (acc : List Nat) (s : List Char) : Gives (fun r => r.2.length ≤ s.length) (stringFrom acc s) := by
  have hlonger {α : Type} {x : Except Fault (α × List Char)} {n m : Nat} (h : Gives (fun r => r.2.length ≤ n) x)
      (hnm : n ≤ m) : Gives (fun r => r.2.length ≤ m) x := fun r hr => Nat.le_trans (h r hr) hnm
  fun_induction stringFrom acc s
  case case1 => exact .error _
  case case2 => exact .ok (by simp)
  case case3 ih => exact hlonger ih (by simp only [List.length_cons]; omega)
  case case4 => exact .error _
  case case5 ih => exact hlonger ih (by simp only [List.length_cons]; omega)
  case case6 => exact .error _
  case case7 => exact .error _
  case case8 ih => exact hlonger ih (by simp)

theorem gives_scalar (s : List Char) : Gives (fun r => r.2.length ≤ s.length) (scalar s) := by
  unfold scalar
  split
  · exact .ok (by simp)
  · split
    · exact fun r hr => Nat.le_trans (gives_number _ _ r hr) (by simp)
    · exact gives_number _ _

mutual

theorem gives_value : ∀ (fuel : Nat) (s : List Char), Gives (fun r => r.2.length ≤ s.length) (value fuel s)
  | 0, _ => by rw [value]; exact .error _
  | fuel + 1, s => by
    unfold value
    split
    · rename_i rest
      exact .bind (gives_stringFrom [] rest) fun r hr => .pure (Nat.le_succ_of_le hr)
    · rename_i rest
      dsimp only
      split
      · rename_i h
        exact .pure (Nat.le_succ_of_le (Nat.le_of_lt (length_lt_of_skip h)))
      · exact .bind (gives_items fuel _) fun r hr => .pure (Nat.le_succ_of_le (Nat.le_trans hr (length_skip_le rest)))
    · rename_i rest
      dsimp only
      split
      · rename_i h
        exact .pure (Nat.le_succ_of_le (Nat.le_of_lt (length_lt_of_skip h)))
      · exact .bind (gives_members fuel _) fun r hr => .pure (Nat.le_succ_of_le (Nat.le_trans hr (length_skip_le rest)))
    · exact gives_scalar s

theorem gives_items : ∀ (fuel : Nat) (s : List Char), Gives (fun r => r.2.length ≤ s.length) (items fuel s)
  | 0, _ => by rw [items]; exact .error _
  | fuel + 1, s => by
    rw [items]
    refine .bind (gives_value fuel s) fun (v, rest) hrest => ?_
    dsimp only at hrest ⊢
    split
    · rename_i h
      have hmore := length_skip_lt h
      exact .bind (gives_items fuel _) fun r hr => .pure (by dsimp only; omega)
    · rename_i h
      have hmore := length_lt_of_skip h
      exact .pure (by dsimp only; omega)
    · exact .error _

theorem gives_members : ∀ (fuel : Nat) (s : List Char), Gives (fun r => r.2.length ≤ s.length) (members fuel s)
  | 0, _ => by rw [members]; exact .error _
  | fuel + 1, s => by
    unfold members
    split
    · rename_i rest
      refine .bind (gives_stringFrom [] rest) fun (k, behind) hbehind => ?_
      dsimp only at hbehind ⊢
      split
      · rename_i hcolon
        have hmore := length_skip_lt hcolon
        refine .bind (gives_value fuel _) fun (v, left) hleft => ?_
        dsimp only at hleft ⊢
        rw [List.length_cons]
        split
        · rename_i h
          have hnext := length_skip_lt h
          exact .bind (gives_members fuel _) fun r hr => .pure (by dsimp only; omega)
        · rename_i h
          have hnext := length_lt_of_skip h
          exact .pure (by dsimp only; omega)
        · exact .error _
      · exact .error _
    · exact .error _

end

/-! ## Fuel -/

theorem bind_congr_of_ok {ε α β : Type} {x : Except ε α} {f g : α → Except ε β} (h : ∀ a, x = .ok a → f a = g a) :
    x >>= f = x >>= g := by
  cases x with
  | error e => rfl
  | ok a => exact h a rfl

mutual

/-- Two steps a character are enough. -/
theorem value_congr : ∀ (fuel fuel' : Nat) (s : List Char), 2 * s.length < fuel → 2 * s.length < fuel' →
    value fuel s = value fuel' s
  | 0, _, _, h, _ => absurd h (Nat.not_lt_zero _)
  | _ + 1, 0, _, _, h => absurd h (Nat.not_lt_zero _)
  | fuel + 1, fuel' + 1, s, h, h' => by
    unfold value
    split
    · rfl
    · rename_i rest
      have hskip := length_skip_le rest
      simp only [List.length_cons] at h h'
      have hitems := items_congr fuel fuel' (skip rest) (by omega) (by omega)
      generalize skip rest = t at hitems
      dsimp only
      split
      · rfl
      · rw [hitems]
    · rename_i rest
      have hskip := length_skip_le rest
      simp only [List.length_cons] at h h'
      have hmembers := members_congr fuel fuel' (skip rest) (by omega) (by omega)
      generalize skip rest = t at hmembers
      dsimp only
      split
      · rfl
      · rw [hmembers]
    · rfl

theorem items_congr : ∀ (fuel fuel' : Nat) (s : List Char), 2 * s.length + 1 < fuel → 2 * s.length + 1 < fuel' →
    items fuel s = items fuel' s
  | 0, _, _, h, _ => absurd h (Nat.not_lt_zero _)
  | _ + 1, 0, _, _, h => absurd h (Nat.not_lt_zero _)
  | fuel + 1, fuel' + 1, s, h, h' => by
    rw [items, items, value_congr fuel fuel' s (by omega) (by omega)]
    refine bind_congr_of_ok fun (v, rest) hv => ?_
    have hrest := gives_value fuel' s _ hv
    dsimp only at hrest ⊢
    split
    · rename_i more hcomma
      have hmore := length_skip_lt hcomma
      rw [items_congr fuel fuel' (skip more) (by omega) (by omega)]
    · rfl
    · rfl

theorem members_congr : ∀ (fuel fuel' : Nat) (s : List Char), 2 * s.length + 1 < fuel → 2 * s.length + 1 < fuel' →
    members fuel s = members fuel' s
  | 0, _, _, h, _ => absurd h (Nat.not_lt_zero _)
  | _ + 1, 0, _, _, h => absurd h (Nat.not_lt_zero _)
  | fuel + 1, fuel' + 1, s, h, h' => by
    unfold members
    split
    · rename_i rest
      simp only [List.length_cons] at h h'
      refine bind_congr_of_ok fun (k, behind) hk => ?_
      have hbehind := gives_stringFrom [] rest _ hk
      dsimp only at hbehind ⊢
      split
      · rename_i more hcolon
        have hmore := length_skip_lt hcolon
        rw [value_congr fuel fuel' (skip more) (by omega) (by omega)]
        refine bind_congr_of_ok fun (v, left) hv => ?_
        have hleft := gives_value fuel' _ _ hv
        dsimp only at hleft ⊢
        split
        · rename_i next hcomma
          have hnext := length_skip_lt hcomma
          rw [members_congr fuel fuel' (skip next) (by omega) (by omega)]
        · rfl
        · rfl
      · rfl
    · rfl

end

/-! ## Texts with an integer of too many digits -/

/-- What is read at a place of a text: a value, the items of a list, or the members of a mapping. -/
inductive Part where
  | value | items | members

/-- **A part whose reading comes to an integer of too many digits**, past all that can be read before it. -/
inductive MeetsOverlong (m : Misuse) : Part → List Char → Prop
  | integer {s : List Char} (h : BeginsOverlong m s) : MeetsOverlong m .value s
  | list {s : List Char} (h : MeetsOverlong m .items (skip s)) : MeetsOverlong m .value ('[' :: s)
  | mapping {s : List Char} (h : MeetsOverlong m .members (skip s)) : MeetsOverlong m .value ('\x7b' :: s)
  | item {s : List Char} (h : MeetsOverlong m .value s) : MeetsOverlong m .items s
  /-- An item is read, and it is among those behind the comma. -/
  | nextItem {s rest more : List Char} {v : Value} (hv : value (2 * s.length + 1) s = .ok (v, rest))
      (hcomma : skip rest = ',' :: more) (h : MeetsOverlong m .items (skip more)) : MeetsOverlong m .items s
  /-- The key of a member is read, and it is in the value behind the colon. -/
  | member {s rest more : List Char} {k : String} (hk : stringFrom [] s = .ok (k, rest)) (hcolon : skip rest = ':' :: more)
      (h : MeetsOverlong m .value (skip more)) : MeetsOverlong m .members ('"' :: s)
  /-- A member is read, and it is among those behind the comma. -/
  | nextMember {s rest more rest' more' : List Char} {k : String} {v : Value} (hk : stringFrom [] s = .ok (k, rest))
      (hcolon : skip rest = ':' :: more) (hv : value (2 * (skip more).length + 1) (skip more) = .ok (v, rest'))
      (hcomma : skip rest' = ',' :: more') (h : MeetsOverlong m .members (skip more')) : MeetsOverlong m .members ('"' :: s)

theorem MeetsOverlong.ne_endless {part : Part} {s : List Char} (h : MeetsOverlong m part s) : m ≠ .endless := by
  induction h with
  | integer h => obtain h | ⟨_, -, h⟩ := h <;> simp [h.misuse]
  | list _ ih | mapping _ ih | item _ ih | nextItem _ _ _ ih | member _ _ _ ih | nextMember _ _ _ _ _ ih => exact ih

theorem failsIn_stringFrom (acc : List Nat) (s : List Char) : FailsIn IsUnparsable (stringFrom acc s) := by
  fun_induction stringFrom acc s <;> simp_all

theorem meetsOverlong_items_iff {s : List Char} : MeetsOverlong m .items s ↔ MeetsOverlong m .value s ∨
    ∃ v rest more, value (2 * s.length + 1) s = .ok (v, rest) ∧ skip rest = ',' :: more ∧
    MeetsOverlong m .items (skip more) := by
  constructor
  · intro h
    cases h with
    | item h => exact .inl h
    | nextItem hv hcomma h => exact .inr ⟨_, _, _, hv, hcomma, h⟩
  · rintro (h | ⟨v, rest, more, hv, hcomma, h⟩)
    · exact .item h
    · exact .nextItem hv hcomma h

theorem meetsOverlong_list_iff {s : List Char} : MeetsOverlong m .value ('[' :: s) ↔ MeetsOverlong m .items (skip s) := by
  constructor
  · intro h
    cases h with
    | integer h => exact absurd h (not_beginsOverlong (by decide) (by decide))
    | list h => exact h
  · exact .list

theorem meetsOverlong_mapping_iff {s : List Char} :
    MeetsOverlong m .value ('\x7b' :: s) ↔ MeetsOverlong m .members (skip s) := by
  constructor
  · intro h
    cases h with
    | integer h => exact absurd h (not_beginsOverlong (by decide) (by decide))
    | mapping h => exact h
  · exact .mapping

theorem meetsOverlong_scalar_iff {s : List Char} (hlist : ∀ rest, s ≠ '[' :: rest) (hmapping : ∀ rest, s ≠ '\x7b' :: rest) :
    MeetsOverlong m .value s ↔ BeginsOverlong m s := by
  constructor
  · intro h
    cases h with
    | integer h => exact h
    | list => exact absurd rfl (hlist _)
    | mapping => exact absurd rfl (hmapping _)
  · exact .integer

theorem meetsOverlong_members_iff {s rest : List Char} {k : String} (hk : stringFrom [] s = .ok (k, rest)) :
    MeetsOverlong m .members ('"' :: s) ↔ ∃ more, skip rest = ':' :: more ∧ (MeetsOverlong m .value (skip more) ∨
      ∃ v left next, value (2 * (skip more).length + 1) (skip more) = .ok (v, left) ∧ skip left = ',' :: next ∧
        MeetsOverlong m .members (skip next)) := by
  constructor
  · intro h
    cases h with
    | member hk' hcolon h =>
      cases hk.symm.trans hk'
      exact ⟨_, hcolon, .inl h⟩
    | nextMember hk' hcolon hv hcomma h =>
      cases hk.symm.trans hk'
      exact ⟨_, hcolon, .inr ⟨_, _, _, hv, hcomma, h⟩⟩
  · rintro ⟨more, hcolon, h | ⟨v, left, next, hv, hcomma, h⟩⟩
    · exact .member hk hcolon h
    · exact .nextMember hk hcolon hv hcomma h

theorem not_meetsOverlong_members {s : List Char} (h : ∀ rest, s ≠ '"' :: rest) : ¬ MeetsOverlong m .members s := by
  intro hs
  cases hs with
  | member | nextMember => exact h _ rfl

theorem not_meetsOverlong_text {s : List Char} : ¬ MeetsOverlong m .value ('"' :: s) := by
  rw [meetsOverlong_scalar_iff (fun _ => by simp) (fun _ => by simp)]
  exact not_beginsOverlong (by decide) (by decide)

theorem not_meetsOverlong_bracket {s : List Char} : ¬ MeetsOverlong m .items (']' :: s) := by
  rw [meetsOverlong_items_iff]
  rintro (h | ⟨v, rest, more, hv, -⟩)
  · rw [meetsOverlong_scalar_iff (fun _ => by simp) (fun _ => by simp)] at h
    exact not_beginsOverlong (by decide) (by decide) h
  · cases hv.symm.trans (show value (2 * (']' :: s).length + 1) (']' :: s) = .error .unparsable from rfl)

/-- What follows a value in brackets is read on only behind a comma. -/
theorem exists_behind_comma_iff {α : Type} {m : Misuse} {x : Except Fault (Value × List Char)}
    {behind : Value × List Char → Except Fault α} {P : List Char → Prop}
    (hcomma : ∀ v rest more, x = .ok (v, rest) → skip rest = ',' :: more →
      (behind (v, rest) = .error (.misuse m) ↔ P (skip more)))
    (hend : ∀ v rest, (∀ more, skip rest ≠ ',' :: more) → behind (v, rest) ≠ .error (.misuse m)) :
    (∃ r, x = .ok r ∧ behind r = .error (.misuse m)) ↔
      ∃ v rest more, x = .ok (v, rest) ∧ skip rest = ',' :: more ∧ P (skip more) := by
  constructor
  · rintro ⟨⟨v, rest⟩, hv, h⟩
    by_cases hmore : ∃ more, skip rest = ',' :: more
    · obtain ⟨more, hmore⟩ := hmore
      exact ⟨v, rest, more, hv, hmore, (hcomma v rest more hv hmore).1 h⟩
    · exact absurd h (hend v rest (not_exists.1 hmore))
  · rintro ⟨v, rest, more, hv, hmore, h⟩
    exact ⟨(v, rest), hv, (hcomma v rest more hv hmore).2 h⟩

theorem bind_pure_eq_error_iff {ε α β : Type} {x : Except ε α} {f : α → β} {e : ε} :
    (x >>= fun a => pure (f a)) = .error e ↔ x = .error e := by
  cases x <;> simp [bind, Except.bind, pure, Except.pure]

mutual

theorem value_eq_misuse_iff : ∀ (fuel : Nat) (s : List Char), 2 * s.length < fuel → ∀ m : Misuse,
    value fuel s = .error (.misuse m) ↔ MeetsOverlong m .value s
  | 0, _, h, _ => absurd h (Nat.not_lt_zero _)
  | fuel + 1, s, h, m => by
    unfold value
    split
    · rename_i rest
      exact iff_of_false (((failsIn_stringFrom [] rest).bind fun _ => .pure _).ne_misuse m) not_meetsOverlong_text
    · rename_i rest
      have hskip := length_skip_le rest
      simp only [List.length_cons] at h
      have hitems := items_eq_misuse_iff fuel (skip rest) (by omega) m
      rw [meetsOverlong_list_iff]
      generalize skip rest = t at hitems
      dsimp only
      split
      · exact iff_of_false (fun h => nomatch h) not_meetsOverlong_bracket
      · rw [← hitems]
        exact bind_pure_eq_error_iff
    · rename_i rest
      have hskip := length_skip_le rest
      simp only [List.length_cons] at h
      have hmembers := members_eq_misuse_iff fuel (skip rest) (by omega) m
      rw [meetsOverlong_mapping_iff]
      generalize skip rest = t at hmembers
      dsimp only
      split
      · exact iff_of_false (fun h => nomatch h) (not_meetsOverlong_members fun _ => by simp)
      · rw [← hmembers]
        exact bind_pure_eq_error_iff
    · rename_i hquote hlist hmapping
      rw [scalar_eq_misuse_iff, meetsOverlong_scalar_iff (fun _ h => hlist _ h) (fun _ h => hmapping _ h)]

theorem items_eq_misuse_iff : ∀ (fuel : Nat) (s : List Char), 2 * s.length + 1 < fuel → ∀ m : Misuse,
    items fuel s = .error (.misuse m) ↔ MeetsOverlong m .items s
  | 0, _, h, _ => absurd h (Nat.not_lt_zero _)
  | fuel + 1, s, h, m => by
    rw [items, except_bind_eq_error_iff, value_eq_misuse_iff fuel s (by omega) m, meetsOverlong_items_iff,
      value_congr fuel (2 * s.length + 1) s (by omega) (by omega)]
    refine or_congr_right (exists_behind_comma_iff (fun v rest more hv hcomma => ?_) fun v rest hnone => ?_)
    · have hrest := gives_value _ s _ hv
      have hmore := length_skip_lt hcomma
      dsimp only at hrest ⊢
      rw [hcomma, ← items_eq_misuse_iff fuel (skip more) (by omega) m]
      exact bind_pure_eq_error_iff
    · dsimp only
      split
      · exact absurd ‹_› (hnone _)
      · exact fun h => nomatch h
      · exact fun h => nomatch h

theorem members_eq_misuse_iff : ∀ (fuel : Nat) (s : List Char), 2 * s.length + 1 < fuel → ∀ m : Misuse,
    members fuel s = .error (.misuse m) ↔ MeetsOverlong m .members s
  | 0, _, h, _ => absurd h (Nat.not_lt_zero _)
  | fuel + 1, s, h, m => by
    unfold members
    split
    · rename_i rest
      simp only [List.length_cons] at h
      rw [except_bind_eq_error_iff, or_iff_right ((failsIn_stringFrom [] rest).ne_misuse m)]
      cases hk : stringFrom [] rest with
      | error f =>
        refine iff_of_false (fun ⟨_, h, _⟩ => nomatch h) fun h => ?_
        cases h with
        | member hk' | nextMember hk' => cases hk.symm.trans hk'
      | ok r =>
        obtain ⟨k, behind⟩ := r
        have hbehind := gives_stringFrom [] rest _ hk
        rw [meetsOverlong_members_iff hk]
        simp only [Except.ok.injEq, exists_eq_left']
        dsimp only at hbehind
        split
        · rename_i more hcolon
          have hmore := length_skip_lt hcolon
          rw [hcolon]
          simp only [List.cons.injEq, true_and, exists_eq_left']
          rw [except_bind_eq_error_iff, value_eq_misuse_iff fuel (skip more) (by omega) m,
            value_congr fuel (2 * (skip more).length + 1) (skip more) (by omega) (by omega)]
          refine or_congr_right (exists_behind_comma_iff (fun v left next hv hcomma => ?_) fun v left hnone => ?_)
          · have hleft := gives_value _ _ _ hv
            have hnext := length_skip_lt hcomma
            dsimp only at hleft ⊢
            rw [hcomma, ← members_eq_misuse_iff fuel (skip next) (by omega) m]
            exact bind_pure_eq_error_iff
          · dsimp only
            split
            · exact absurd ‹_› (hnone _)
            · exact fun h => nomatch h
            · exact fun h => nomatch h
        · rename_i hcolon
          exact iff_of_false (fun h => nomatch h) fun ⟨more, h, _⟩ => hcolon more h
    · rename_i hquote
      exact iff_of_false (fun h => nomatch h) (not_meetsOverlong_members fun _ h => hquote _ h)

end

/-- **A JSON text ends in a misuse** where its reading comes to an integer of too many digits. -/
theorem parse_eq_misuse_iff {text : String} :
    parse text = .error (.misuse m) ↔ MeetsOverlong m .value (skip text.toList) := by
  have hskip := length_skip_le text.toList
  have hrest (r : Value × List Char) :
      (if skip r.2 = [] then pure r.1 else throw .unparsable : Except Fault Value) ≠ .error (.misuse m) := by
    split <;> exact fun h => nomatch h
  rw [← value_eq_misuse_iff (2 * text.toList.length + 1) _ (by omega) m]
  constructor
  · intro h
    obtain h | ⟨r, -, h⟩ := except_bind_eq_error_iff.1 h
    · exact h
    · exact absurd h (hrest r)
  · exact fun h => except_bind_eq_error_iff.2 (.inl h)

end Json
end Provision
