import Mathlib.Algebra.Order.Ring.Nat
import Provision.Proofs.Faults.Kinds
import Provision.Yaml.Content
/-!
# Scalars that denote no value of their type

A scalar whose type is known by its form, or said by a tag, may still denote no value of that type: a word that is no
truth value, a number without digits, a date that is not in the calendar.  `Scalar.Unfit` lists what can be wrong with
one; these are exactly the scalars whose reading ends in another fault than that of a text not of its language
(`Scalar.value_eq_misuse_iff`).
-/
namespace Provision.Yaml.Scalar

open Fault (IsReading)

/-- **The first of several parts that denotes nothing.** -/
def FirstNone {α : Type} (f : List Char → Option α) (parts : List (List Char)) (part : List Char) : Prop :=
  ∃ before after, parts = before ++ part :: after ∧ (∀ p ∈ before, f p ≠ none) ∧ f part = none

/-- **An integer that cannot be read**, behind its sign: its digits are none of its base, or too many. -/
inductive NoInteger : List Char → Misread → Prop
  | binary {ds : List Char} (h : integer? 2 ds = none) : NoInteger ('0' :: 'b' :: ds) (integerFault 2 ds)
  | hexadecimal {ds : List Char} (h : integer? 16 ds = none) : NoInteger ('0' :: 'x' :: ds) (integerFault 16 ds)
  | octal {c : Char} {ds : List Char} (hb : c ≠ 'b') (hx : c ≠ 'x') (h : integer? 8 ('0' :: c :: ds) = none) :
      NoInteger ('0' :: c :: ds) (integerFault 8 ('0' :: c :: ds))
  | decimal {c : Char} {ds : List Char} (hc : c ≠ '0') (hcolon : ':' ∉ c :: ds) (h : integer? 10 (c :: ds) = none) :
      NoInteger (c :: ds) (integerFault 10 (c :: ds))
  | sexagesimal {c : Char} {ds part : List Char} (hc : c ≠ '0') (hcolon : ':' ∈ c :: ds)
      (h : FirstNone (integer? 10) (sixtieths (c :: ds)) part) : NoInteger (c :: ds) (integerFault 10 part)

/-- **A floating point number that cannot be read**, behind its sign. -/
inductive NoFloat (s : List Char) : Misuse → Prop
  | decimal (hinf : s ≠ ".inf".toList) (hnan : s ≠ ".nan".toList) (hcolon : ':' ∉ s) (h : float? s = none) :
      NoFloat s (.misread (.notNumber (String.ofList s)))
  | part {part : List Char} (hcolon : ':' ∈ s) (h : FirstNone float? (sixtieths s) part) :
      NoFloat s (.misread (.notNumber (String.ofList part)))
  /-- There are so many parts that the first place is worth more than every finite number. -/
  | place {k : Nat} (hcolon : ':' ∈ s) (hparts : ∀ part ∈ sixtieths s, float? part ≠ none)
      (hk : k < (sixtieths s).length) (h : Double.ofInt? (60 ^ k : Nat) = none) : NoFloat s .outOfRange

/-- **A stamp of a day or a time that is none**, and what is wrong with it. -/
inductive NoStamp (stamp : Stamp) (cause : CalendarFault) : Prop
  | date (htime : stamp.time = none) (h : Date.ofParts stamp.year stamp.month stamp.day = .error cause) : NoStamp stamp cause
  | time {hour minute second : Nat} (htime : stamp.time = some (hour, minute, second))
      (h : Timestamp.ofParts stamp.year stamp.month stamp.day hour minute second stamp.fraction stamp.offset =
        .error cause) :
      NoStamp stamp cause

/-- **A scalar does not denote a value of its type**, and what goes wrong when it is read all the same. -/
inductive Unfit : Tag → String → Misuse → Prop
  | bool {s : String}
      (h : String.ofList (s.toList.map Char.toLower) ∉ ["yes", "true", "on", "no", "false", "off"]) : Unfit .bool s .noField
  | emptyInt {s : String} (h : (unsigned (withoutBars s)).2 = []) : Unfit .int s .emptyScalar
  | int {s : String} {cause : Misread} (h : NoInteger (unsigned (withoutBars s)).2 cause) : Unfit .int s (.misread cause)
  | emptyFloat {s : String} (h : withoutBars s = []) : Unfit .float s .emptyScalar
  | float {s : String} {m : Misuse} (hs : withoutBars s ≠ [])
      (h : NoFloat (unsigned ((withoutBars s).map Char.toLower)).2 m) : Unfit .float s m
  | noStamp {s : String} (h : Stamp.ofChars? (Implicit.withoutLineFeed s).toList = none) :
      Unfit .timestamp s .noTextOperation
  | stamp {s : String} {stamp : Stamp} {cause : CalendarFault}
      (hstamp : Stamp.ofChars? (Implicit.withoutLineFeed s).toList = some stamp) (h : NoStamp stamp cause) :
      Unfit .timestamp s (.misread (.notInCalendar cause))

theorem orFault_eq_misuse_iff {α : Type} {m k : Misuse} {x : Option α} :
    orFault m x = .error (.misuse k) ↔ x = none ∧ k = m := by
  cases x <;> simp [orFault, eq_comm]

theorem orFault_eq_ok_iff {α : Type} {m : Misuse} {x : Option α} {a : α} : orFault m x = .ok a ↔ x = some a := by
  cases x <;> simp [orFault]

theorem mapM_eq_misuse_iff {α : Type} {f : List Char → Option α} {m : List Char → Misuse} {g : List Char → Except Fault α}
    (hg : ∀ p, g p = orFault (m p) (f p)) {parts : List (List Char)} {k : Misuse} :
    parts.mapM g = .error (.misuse k) ↔ ∃ part, FirstNone f parts part ∧ k = m part := by
  have hread (p : List Char) : (∃ a, g p = .ok a) ↔ f p ≠ none := by
    simp only [hg, orFault_eq_ok_iff, Option.ne_none_iff_exists']
  simp only [except_mapM_eq_error_iff, hread, FirstNone]
  simp only [hg, orFault_eq_misuse_iff]
  exact ⟨fun ⟨before, part, after, hsplit, hbefore, h, hk⟩ => ⟨part, ⟨before, after, hsplit, hbefore, h⟩, hk⟩,
    fun ⟨part, ⟨before, after, hsplit, hbefore, h⟩, hk⟩ => ⟨before, part, after, hsplit, hbefore, h, hk⟩⟩

theorem magnitude_eq_misuse_iff {s : List Char} {m : Misuse} :
    magnitude s = .error (.misuse m) ↔ s = [] ∧ m = .emptyScalar ∨ ∃ cause, NoInteger s cause ∧ m = .misread cause := by
  constructor
  · intro h
    unfold magnitude at h
    split at h
    · cases h
      exact .inl ⟨rfl, rfl⟩
    · cases h
    · obtain ⟨hnone, rfl⟩ := orFault_eq_misuse_iff.1 h
      exact .inr ⟨_, .binary hnone, rfl⟩
    · obtain ⟨hnone, rfl⟩ := orFault_eq_misuse_iff.1 h
      exact .inr ⟨_, .hexadecimal hnone, rfl⟩
    · rename_i rest hzero hbinary hhex
      obtain ⟨hnone, rfl⟩ := orFault_eq_misuse_iff.1 h
      cases rest with
      | nil => exact absurd rfl hzero
      | cons c ds => exact .inr ⟨_, .octal (fun hc => hbinary ds (hc ▸ rfl)) (fun hc => hhex ds (hc ▸ rfl)) hnone, rfl⟩
    · rename_i hnil _ _ _ hzero
      cases s with
      | nil => exact absurd rfl hnil
      | cons c ds =>
        have hc : c ≠ '0' := fun hc => hzero ds (hc ▸ rfl)
        split at h
        · obtain ⟨part, hpart, rfl⟩ := (mapM_eq_misuse_iff fun _ => rfl).1 (except_map_eq_error_iff.1 h)
          exact .inr ⟨_, .sexagesimal hc (List.contains_iff_mem.1 ‹_›) hpart, rfl⟩
        · obtain ⟨hnone, rfl⟩ := orFault_eq_misuse_iff.1 h
          exact .inr ⟨_, .decimal hc (mt List.contains_iff_mem.2 ‹_›) hnone, rfl⟩
  · rintro (⟨rfl, rfl⟩ | ⟨cause, h, rfl⟩)
    · rfl
    · cases h with
      | binary h => exact orFault_eq_misuse_iff.2 ⟨h, rfl⟩
      | hexadecimal h => exact orFault_eq_misuse_iff.2 ⟨h, rfl⟩
      | octal hb hx h =>
        rw [magnitude]
        · exact orFault_eq_misuse_iff.2 ⟨h, rfl⟩
        all_goals simp [hb, hx]
      | decimal hc hcolon h =>
        rw [magnitude, if_neg (mt List.contains_iff_mem.1 hcolon)]
        · exact orFault_eq_misuse_iff.2 ⟨h, rfl⟩
        all_goals simp [hc]
      | sexagesimal hc hcolon h =>
        rw [magnitude, if_pos (List.contains_iff_mem.2 hcolon)]
        · exact except_map_eq_error_iff.2 ((mapM_eq_misuse_iff fun _ => rfl).2 ⟨_, h, rfl⟩)
        all_goals simp [hc]

theorem bool_eq_misuse_iff {s : String} {m : Misuse} : bool s = .error (.misuse m) ↔ Unfit .bool s m := by
  constructor
  · intro h
    unfold bool at h
    dsimp only at h
    split at h
    · cases h
    · split at h
      · cases h
      · cases h
        refine .bool ?_
        simp_all
  · rintro ⟨h⟩
    unfold bool
    generalize String.ofList (s.toList.map Char.toLower) = word at h
    simp only [List.mem_cons, List.not_mem_nil, or_false, not_or] at h
    simp [h]

theorem int_eq_misuse_iff {s : String} {m : Misuse} : int s = .error (.misuse m) ↔ Unfit .int s m := by
  have hmagnitude : int s = .error (.misuse m) ↔ magnitude (unsigned (withoutBars s)).2 = .error (.misuse m) := by
    unfold int
    dsimp only
    split
    · rename_i hs
      rw [hs]
      constructor <;> (intro h; cases h; rfl)
    · cases magnitude (unsigned (withoutBars s)).2 <;> simp [bind, Except.bind, pure, Except.pure]
  rw [hmagnitude, magnitude_eq_misuse_iff]
  constructor
  · rintro (⟨h, rfl⟩ | ⟨cause, h, rfl⟩)
    · exact .emptyInt h
    · exact .int h
  · intro h
    cases h with
    | emptyInt h => exact .inl ⟨h, rfl⟩
    | int h => exact .inr ⟨_, h, rfl⟩

/-- A place is worth more than every finite number where the power of sixty is. -/
theorem sumOfPlaces_eq_none_iff {ds : List Double} : ∀ {total : Double} {place : Nat},
    sumOfPlaces total place ds = none ↔ ∃ k < ds.length, Double.ofInt? (place * 60 ^ k : Nat) = none := by
  induction ds with
  | nil => simp [sumOfPlaces]
  | cons d ds ih =>
    intro total place
    have hstep (total : Double) : sumOfPlaces total (place * 60) ds = none ↔
        ∃ k < ds.length, Double.ofInt? (place * 60 ^ (k + 1) : Nat) = none := by
      rw [ih]
      refine exists_congr fun k => and_congr_right fun _ => ?_
      rw [Nat.pow_succ', Nat.mul_assoc]
    rw [sumOfPlaces, List.length_cons]
    cases hworth : Double.ofInt? place with
    | none => exact iff_of_true rfl ⟨0, Nat.succ_pos _, by rwa [Nat.pow_zero, Nat.mul_one]⟩
    | some worth =>
      refine (hstep _).trans ⟨fun ⟨k, hk, h⟩ => ⟨k + 1, Nat.succ_lt_succ hk, h⟩, fun ⟨k, hk, h⟩ => ?_⟩
      cases k with
      | zero =>
        rw [Nat.pow_zero, Nat.mul_one, hworth] at h
        cases h
      | succ k => exact ⟨k, Nat.lt_of_succ_lt_succ hk, h⟩

theorem sumOfParts_eq_misuse_iff {parts : List (List Char)} {m : Misuse} :
    (parts.mapM number >>= fun ds => orFault .outOfRange (sumOfPlaces (.ofFields false 0) 1 ds.reverse)) =
      .error (.misuse m) ↔
    (∃ part, FirstNone float? parts part ∧ m = .misread (.notNumber (String.ofList part))) ∨
      (∀ part ∈ parts, float? part ≠ none) ∧ (∃ k < parts.length, Double.ofInt? (60 ^ k : Nat) = none) ∧
      m = .outOfRange := by
  rw [except_bind_eq_error_iff, mapM_eq_misuse_iff (g := number) fun _ => rfl]
  refine or_congr_right ⟨?_, ?_⟩
  · rintro ⟨ds, hds, h⟩
    obtain ⟨hnone, rfl⟩ := orFault_eq_misuse_iff.1 h
    obtain ⟨k, hk, h⟩ := sumOfPlaces_eq_none_iff.1 hnone
    refine ⟨fun part hpart hnone => ?_, ⟨k, ?_, by rwa [Nat.one_mul] at h⟩, rfl⟩
    · obtain ⟨d, hd⟩ := exists_of_except_mapM hds hpart
      rw [number, orFault_eq_ok_iff, hnone] at hd
      cases hd
    · rwa [(except_mapM_eq_ok_iff.1 hds).length_eq, ← List.length_reverse]
  · rintro ⟨hparts, ⟨k, hk, h⟩, rfl⟩
    obtain ⟨ds, hds⟩ := exists_except_mapM (f := number) fun part hpart =>
      (Option.ne_none_iff_exists'.1 (hparts part hpart)).imp fun d hd => orFault_eq_ok_iff.2 hd
    refine ⟨ds, hds, orFault_eq_misuse_iff.2 ⟨sumOfPlaces_eq_none_iff.2 ⟨k, ?_, by rwa [Nat.one_mul]⟩, rfl⟩⟩
    rwa [List.length_reverse, ← (except_mapM_eq_ok_iff.1 hds).length_eq]

theorem float_eq_misuse_iff {s : String} {m : Misuse} : float s = .error (.misuse m) ↔ Unfit .float s m := by
  constructor
  · intro h
    unfold float at h
    dsimp only at h
    split at h
    · rename_i hs
      cases h
      exact .emptyFloat (List.map_eq_nil_iff.1 hs)
    · rename_i hs
      refine .float (mt List.map_eq_nil_iff.2 hs) ?_
      split at h
      · cases h
      · rename_i hinf
        split at h
        · cases h
        · rename_i hnan
          split at h
          · rename_i hcolon
            rw [List.contains_iff_mem] at hcolon
            rw [← bind_assoc, bind_pure_comp, except_map_eq_error_iff, sumOfParts_eq_misuse_iff] at h
            obtain ⟨part, hpart, rfl⟩ | ⟨hparts, ⟨k, hk, h⟩, rfl⟩ := h
            · exact .part hcolon hpart
            · exact .place hcolon hparts hk h
          · rename_i hcolon
            rw [bind_pure_comp, except_map_eq_error_iff, number, orFault_eq_misuse_iff] at h
            obtain ⟨h, rfl⟩ := h
            exact .decimal hinf hnan (mt List.contains_iff_mem.2 hcolon) h
  · intro h
    cases h with
    | emptyFloat h =>
      unfold float
      rw [h]
      rfl
    | float hs h =>
      unfold float
      dsimp only
      rw [if_neg (mt List.map_eq_nil_iff.1 hs)]
      generalize unsigned ((withoutBars s).map Char.toLower) = u at h
      have hname {name : String} (hcolon : ':' ∈ u.2) (hnot : ':' ∉ name.toList) : u.2 ≠ name.toList := fun h =>
        hnot (h ▸ hcolon)
      cases h with
      | decimal hinf hnan hcolon h =>
        rw [if_neg hinf, if_neg hnan, if_neg (mt List.contains_iff_mem.1 hcolon), number, h]
        rfl
      | part hcolon h =>
        rw [if_neg (hname hcolon (by decide)), if_neg (hname hcolon (by decide)), if_pos (List.contains_iff_mem.2 hcolon),
          ← bind_assoc, bind_pure_comp, except_map_eq_error_iff, sumOfParts_eq_misuse_iff]
        exact .inl ⟨_, h, rfl⟩
      | place hcolon hparts hk h =>
        rw [if_neg (hname hcolon (by decide)), if_neg (hname hcolon (by decide)), if_pos (List.contains_iff_mem.2 hcolon),
          ← bind_assoc, bind_pure_comp, except_map_eq_error_iff, sumOfParts_eq_misuse_iff]
        exact .inr ⟨hparts, ⟨_, hk, h⟩, rfl⟩

theorem stampValue_eq_error_iff {stamp : Stamp} {cause : CalendarFault} :
    stamp.value = .error cause ↔ NoStamp stamp cause := by
  unfold Stamp.value
  constructor
  · intro h
    split at h
    · rename_i htime
      exact .date htime (except_map_eq_error_iff.1 h)
    · rename_i htime
      exact .time htime (except_map_eq_error_iff.1 h)
  · rintro (⟨htime, h⟩ | ⟨htime, h⟩) <;> rw [htime] <;> exact except_map_eq_error_iff.2 h

theorem timestamp_eq_misuse_iff {s : String} {m : Misuse} :
    timestamp s = .error (.misuse m) ↔ Unfit .timestamp s m := by
  unfold timestamp
  rw [except_bind_eq_error_iff, orFault_eq_misuse_iff]
  have hvalue {stamp : Stamp} : stamp.value.mapError (fun cause => Fault.misuse (.misread (.notInCalendar cause))) =
      .error (.misuse m) ↔ ∃ cause, NoStamp stamp cause ∧ m = .misread (.notInCalendar cause) := by
    simp only [← stampValue_eq_error_iff]
    cases stamp.value <;> simp [Except.mapError, eq_comm]
  constructor
  · rintro (⟨h, rfl⟩ | ⟨stamp, hstamp, h⟩)
    · exact .noStamp h
    · obtain ⟨cause, hcause, rfl⟩ := hvalue.1 h
      exact .stamp (orFault_eq_ok_iff.1 hstamp) hcause
  · intro h
    cases h with
    | noStamp h => exact .inl ⟨h, rfl⟩
    | stamp hstamp h => exact .inr ⟨_, orFault_eq_ok_iff.2 hstamp, hvalue.2 ⟨_, h, rfl⟩⟩

/-- **Which scalars are neither read nor refused.** -/
theorem value_eq_misuse_iff {tag : Tag} {s : String} {m : Misuse} : value tag s = .error (.misuse m) ↔ Unfit tag s m := by
  cases tag
  case bool => exact bool_eq_misuse_iff
  case int => exact int_eq_misuse_iff
  case float => exact float_eq_misuse_iff
  case timestamp => exact timestamp_eq_misuse_iff
  case binary =>
    refine iff_of_false (FailsIn.ne_misuse ?_ m) (fun h => nomatch h)
    change FailsIn _ (binary s)
    unfold binary
    split
    · split <;> simp
    · simp
  all_goals exact iff_of_false (fun h => nomatch h) (fun h => nomatch h)

/-! ## All that can be wrong -/

@[grind .] theorem failsIn_orFault {α : Type} (m : Misuse) (x : Option α) : FailsIn IsReading (orFault m x) := by
  cases x <;> simp [orFault]

theorem failsIn_integer (base : Nat) (s : List Char) : FailsIn IsReading (integer base s) := failsIn_orFault _ _

theorem failsIn_number (s : List Char) : FailsIn IsReading (number s) := failsIn_orFault _ _

theorem failsIn_magnitude (s : List Char) : FailsIn IsReading (magnitude s) := by
  have := failsIn_integer
  have hparts := FailsIn.mapM fun part (_ : part ∈ sixtieths s) => failsIn_integer 10 part
  fun_cases magnitude s <;> grind

theorem failsIn_int (s : String) : FailsIn IsReading (int s) := by
  have := failsIn_magnitude
  grind [int]

theorem failsIn_float (s : String) : FailsIn IsReading (float s) := by
  have := failsIn_number
  have hparts (parts : List (List Char)) : FailsIn IsReading (parts.mapM number) := .mapM fun part _ => failsIn_number part
  unfold float
  grind

theorem failsIn_timestamp (s : String) : FailsIn IsReading (timestamp s) := by
  unfold timestamp
  grind

theorem failsIn_value (tag : Tag) (s : String) : FailsIn IsReading (value tag s) := by
  have := failsIn_int
  have := failsIn_float
  have := failsIn_timestamp
  fun_cases value tag s <;> grind [bool, binary]

end Provision.Yaml.Scalar
