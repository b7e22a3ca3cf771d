import Provision.Proofs.Text.Keys
import Provision.Proofs.Traced
import Provision.Run.Prerequisite
/-!
# Checks of prerequisites

A check passes for the superuser on a machine that lacks nothing of what the packages provide
(`Prerequisite.check_eq_ok_iff`).  So programs are there after every check that passes exactly where the packages cover them
(`Prerequisite.covers_iff`).
-/
namespace Provision

namespace Prerequisite

def IsListed (program : String) : Prop := ∃ e ∈ executables, program ∈ e.2

def Provides (packages : List String) (program : String) : Prop := ∃ e ∈ executables, e.1 ∈ packages ∧ program ∈ e.2

/-- Whether some packages cover programs: those of them that a known package provides. -/
def Covers (packages programs : List String) : Prop := ∀ p ∈ programs, IsListed p → Provides packages p

instance (program : String) : Decidable (IsListed program) :=
  inferInstanceAs (Decidable (∃ e ∈ executables, program ∈ e.2))

instance (packages : List String) (program : String) : Decidable (Provides packages program) :=
  inferInstanceAs (Decidable (∃ e ∈ executables, e.1 ∈ packages ∧ program ∈ e.2))

instance (packages programs : List String) : Decidable (Covers packages programs) :=
  inferInstanceAs (Decidable (∀ p ∈ programs, IsListed p → Provides packages p))

theorem lookup_eq_some_iff {package : String} {es : List String} :
    executables.lookup package = some es ↔ (package, es) ∈ executables := by
  constructor
  · intro h
    obtain ⟨before, after, he, -⟩ := List.lookup_eq_some_iff.1 h
    rw [he]
    exact List.mem_append_right _ List.mem_cons_self
  · have hall : ∀ e ∈ executables, executables.lookup e.1 = some e.2 := by decide +kernel
    exact hall (package, es)

theorem outcome_missing (env : Environment) (packages : List String) : (missing env packages).outcome =
    .ok (packages.flatMap (fun p => ((executables.lookup p).getD []).filter env.missing.contains)) := by
  have hone (p : String) :
      (missingOf env p).outcome = .ok (((executables.lookup p).getD []).filter env.missing.contains) := by
    unfold missingOf
    cases executables.lookup p <;> rfl
  have hall : (packages.mapM (missingOf env)).outcome =
      .ok (packages.map (fun p => ((executables.lookup p).getD []).filter env.missing.contains)) := by
    rw [Traced.outcome_mapM_eq_ok_iff, List.forall₂_map_right_iff, List.forall₂_same]
    exact fun p _ => hone p
  rw [missing, Traced.outcome_bind, hall]
  rfl

/-- **A check passes** for the superuser, where no program that the packages provide is missing. -/
theorem check_eq_ok_iff {env : Environment} {packages : List String} :
    (check env false packages).outcome = .ok () ↔ env.user = 0 ∧ ∀ p ∈ env.missing, ¬ Provides packages p := by
  have hmissing : packages.flatMap (fun p => ((executables.lookup p).getD []).filter env.missing.contains) = [] ↔
      ∀ p ∈ env.missing, ¬ Provides packages p := by
    simp only [List.flatMap_eq_nil_iff, List.filter_eq_nil_iff, List.contains_iff_mem]
    constructor
    · rintro h p hp ⟨e, he, hpackage, hprogram⟩
      refine h e.1 hpackage p ?_ hp
      rw [lookup_eq_some_iff.2 he]
      exact hprogram
    · intro h package hpackage p hp hmissing
      cases hes : executables.lookup package with
      | none =>
        rw [hes] at hp
        cases hp
      | some es =>
        rw [hes] at hp
        exact h p hmissing ⟨_, lookup_eq_some_iff.1 hes, hpackage, hp⟩
  rw [← hmissing, check, if_neg Bool.false_ne_true]
  by_cases huser : env.user = 0
  · rw [if_neg (not_not.2 huser), Traced.outcome_bind, outcome_missing, except_ok_bind]
    cases packages.flatMap (fun p => ((executables.lookup p).getD []).filter env.missing.contains) with
    | nil => simp [huser]
    | cons p ps => simp
  · rw [if_pos huser]
    simp [huser]

/-- **Programs are there whenever a check passes** exactly where the packages that it looks at cover them. -/
theorem covers_iff {packages programs : List String} : Covers packages programs ↔
    ∀ env, (check env false packages).outcome = .ok () → ∀ p ∈ programs, IsListed p → p ∉ env.missing := by
  constructor
  · intro h env hcheck p hp hlisted hmissing
    exact (check_eq_ok_iff.1 hcheck).2 p hmissing (h p hp hlisted)
  · intro h p hp hlisted
    by_contra hprovides
    -- a machine that has everything but this program
    exact h { missing := [p] } (check_eq_ok_iff.2 ⟨rfl, List.forall_mem_singleton.2 hprovides⟩) p hp hlisted
      List.mem_cons_self

theorem Provides.mono {packages more : List String} {program : String} (h : Provides packages program)
    (hsub : packages ⊆ more) : Provides more program := by
  obtain ⟨e, he, hpackage, hprogram⟩ := h
  exact ⟨e, he, hsub hpackage, hprogram⟩

theorem Provides.mem {packages : List String} {package program : String} (h : Provides packages program)
    (honly : ∀ e ∈ executables, program ∈ e.2 → e.1 = package) : package ∈ packages := by
  obtain ⟨e, he, hpackage, hprogram⟩ := h
  exact honly e he hprogram ▸ hpackage

theorem format_of_isListed {format : String} (h : IsListed ("mkfs." ++ format)) :
    format ∈ ["btrfs", "vfat", "ext4", "xfs"] := by
  obtain ⟨e, he, hp⟩ := h
  have hall : "mkfs." ++ format ∈ executables.flatMap (·.2) := List.mem_flatMap.2 ⟨e, he, hp⟩
  simp only [executables, List.flatMap_cons, List.flatMap_nil, List.cons_append, List.nil_append, List.mem_cons,
    List.not_mem_nil, ← String.toList_inj] at hall ⊢
  simpa using hall

theorem exists_text_of_isListed {format : Value} (hkey : format.isKey = true)
    (hlisted : IsListed ("mkfs." ++ format.toText)) :
    ∃ s, format = .text s := by
  have hformat := format_of_isListed hlisted
  rw [← Value.isText_iff]
  by_contra htext
  rw [Bool.not_eq_true] at htext
  cases hint : format.isInt with
  | true =>
    obtain ⟨n, rfl⟩ : ∃ n, format = .int n := by
      cases format <;> first | exact ⟨_, rfl⟩ | cases hint
    have hall : ∀ s ∈ ["btrfs", "vfat", "ext4", "xfs"], s.toList.any (fun c => !c.isDigit && c != '-') = true := by decide
    obtain ⟨c, hc, hno⟩ := List.any_eq_true.1 (hall _ hformat)
    obtain hdigit | rfl := Value.digits_of_int n c hc
    · simp [hdigit] at hno
    · cases hno
  | false =>
    have hall : ∀ s ∈ ["btrfs", "vfat", "ext4", "xfs"], s.toList.all (!Value.marks.contains ·) = true := by decide
    obtain ⟨c, hc, hmark⟩ := Value.exists_mark hkey htext hint
    have hno := List.all_eq_true.1 (hall _ hformat) c hc
    rw [List.contains_iff_mem.2 hmark] at hno
    cases hno

end Prerequisite

end Provision
