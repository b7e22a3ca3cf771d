import Mathlib.Data.List.Forall2
import Provision.Traced
/-!
# Laws of computations that can fail

Traced computations form a lawful monad.  A sequence of computations succeeds exactly when all its members do, and the
record of a traced sequence that succeeds is the records of its members, one after the other.
-/
namespace Provision

section Related

variable {α β : Type} {R : α → β → Prop} {xs : List α} {ys : List β}

theorem exists_right_of_forall₂ (h : List.Forall₂ R xs ys) {x : α} (hx : x ∈ xs) : ∃ y ∈ ys, R x y := by
  induction h with
  | nil => cases hx
  | cons hxy _ ih =>
    rcases List.mem_cons.1 hx with rfl | hx
    · exact ⟨_, List.mem_cons_self, hxy⟩
    · obtain ⟨y, hy, hxy⟩ := ih hx
      exact ⟨y, List.mem_cons_of_mem _ hy, hxy⟩

theorem exists_left_of_forall₂ (h : List.Forall₂ R xs ys) {y : β} (hy : y ∈ ys) : ∃ x ∈ xs, R x y :=
  exists_right_of_forall₂ (R := fun y x => R x y) h.flip hy

theorem forall₂_imp_of_mem {S : α → β → Prop} (h : List.Forall₂ R xs ys) (himp : ∀ x ∈ xs, ∀ y, R x y → S x y) :
    List.Forall₂ S xs ys :=
  ((List.forall₂_and_left _ _).2 ⟨himp, h⟩).imp fun _ y hxy => hxy.1 y hxy.2

theorem exists_append_cons_of_forall₂ {y : β} {after : List β} : ∀ {before : List β} {xs : List α},
    List.Forall₂ R xs (before ++ y :: after) → ∃ xs₁ x xs₂, xs = xs₁ ++ x :: xs₂ ∧ R x y ∧ List.Forall₂ R xs₂ after
  | [], x :: xs, .cons hxy h => ⟨[], x, xs, rfl, hxy, h⟩
  | _ :: before, x :: xs, .cons _ h => by
    obtain ⟨xs₁, x', xs₂, rfl, hxy, hafter⟩ := exists_append_cons_of_forall₂ h
    exact ⟨x :: xs₁, x', xs₂, rfl, hxy, hafter⟩

end Related

section Sequences

variable {m : Type → Type} [Monad m] [LawfulMonad m] {α β γ : Type}

theorem mapM_eq_map_mapM {f : α → m β} {f' : α → m γ} {g : β → γ} {xs : List α} (h : ∀ x ∈ xs, f' x = g <$> f x) :
    xs.mapM f' = List.map g <$> xs.mapM f := by
  induction xs with
  | nil => simp
  | cons x xs ih =>
    obtain ⟨hx, hxs⟩ := List.forall_mem_cons.1 h
    rw [List.mapM_cons, List.mapM_cons, hx, ih hxs]
    simp

theorem mapM_flatMap (f : β → m γ) (g : α → List β) (xs : List α) :
    (xs.flatMap g).mapM f = List.flatten <$> xs.mapM (fun x => (g x).mapM f) := by
  induction xs with
  | nil => simp
  | cons x xs ih => simp [ih]

end Sequences

section Except

variable {ε α β : Type}

theorem except_ok_bind (a : α) (f : α → Except ε β) : Except.ok a >>= f = f a := rfl

theorem except_bind_eq_ok_iff {x : Except ε α} {f : α → Except ε β} {b : β} :
    x >>= f = .ok b ↔ ∃ a, x = .ok a ∧ f a = .ok b := by
  cases x <;> simp [bind, Except.bind]

theorem except_bind_eq_error_iff {x : Except ε α} {f : α → Except ε β} {e : ε} :
    x >>= f = .error e ↔ x = .error e ∨ ∃ a, x = .ok a ∧ f a = .error e := by
  cases x <;> simp [bind, Except.bind]

theorem except_map_eq_ok_iff {k : α → β} {x : Except ε α} {b : β} : k <$> x = .ok b ↔ ∃ a, x = .ok a ∧ k a = b := by
  cases x <;> simp [Functor.map, Except.map]

theorem except_map_eq_error_iff {k : α → β} {x : Except ε α} {e : ε} : k <$> x = .error e ↔ x = .error e := by
  cases x <;> simp [Functor.map, Except.map]

theorem option_mapM_eq_some_iff {f : α → Option β} {xs : List α} {ys : List β} :
    xs.mapM f = some ys ↔ xs.map f = ys.map some := by
  induction xs generalizing ys with
  | nil => cases ys <;> simp
  | cons x xs ih =>
    rw [List.mapM_cons, List.map_cons]
    cases f x with
    | none => cases ys <;> simp
    | some y =>
      cases ys with
      | nil => cases xs.mapM f <;> simp
      | cons z zs =>
        rw [List.map_cons, List.cons.injEq, Option.some.injEq, ← ih]
        cases xs.mapM f <;> simp

theorem except_mapM_eq_ok_iff {f : α → Except ε β} {xs : List α} {ys : List β} :
    xs.mapM f = .ok ys ↔ List.Forall₂ (fun x y => f x = .ok y) xs ys := by
  induction xs generalizing ys with
  | nil => cases ys <;> simp [pure, Except.pure]
  | cons x xs ih =>
    rw [List.mapM_cons]
    simp only [except_bind_eq_ok_iff, pure, Except.pure, Except.ok.injEq, ih]
    constructor
    · rintro ⟨y, hy, ys', hys, rfl⟩
      exact .cons hy hys
    · rintro (_ | ⟨hy, hys⟩)
      exact ⟨_, hy, _, hys, rfl⟩

theorem except_mapM_eq_ok_map {f : α → Except ε β} {g : α → β} {xs : List α} (h : ∀ x ∈ xs, f x = .ok (g x)) :
    xs.mapM f = .ok (xs.map g) :=
  except_mapM_eq_ok_iff.2 (List.forall₂_map_right_iff.2 (List.forall₂_same.2 h))

theorem exists_of_except_mapM {f : α → Except ε β} {xs : List α} {ys : List β} (h : xs.mapM f = .ok ys) {x : α}
    (hx : x ∈ xs) : ∃ y, f x = .ok y := by
  obtain ⟨y, -, hxy⟩ := exists_right_of_forall₂ (except_mapM_eq_ok_iff.1 h) hx
  exact ⟨y, hxy⟩

theorem exists_except_mapM {f : α → Except ε β} {xs : List α} (h : ∀ x ∈ xs, ∃ y, f x = .ok y) :
    ∃ ys, xs.mapM f = .ok ys := by
  simp only [except_mapM_eq_ok_iff]
  induction xs with
  | nil => exact ⟨[], .nil⟩
  | cons x xs ih =>
    obtain ⟨hx, hxs⟩ := List.forall_mem_cons.1 h
    obtain ⟨y, hy⟩ := hx
    obtain ⟨ys, hys⟩ := ih hxs
    exact ⟨y :: ys, .cons hy hys⟩

/-- **A sequence fails exactly where its first failing member does.** -/
theorem except_mapM_eq_error_iff {f : α → Except ε β} {xs : List α} {e : ε} : xs.mapM f = .error e ↔
    ∃ before x after, xs = before ++ x :: after ∧ (∀ b ∈ before, ∃ y, f b = .ok y) ∧ f x = .error e := by
  induction xs with
  | nil => simp [pure, Except.pure]
  | cons x xs ih =>
    rw [List.mapM_cons]
    simp only [except_bind_eq_error_iff, pure, Except.pure, reduceCtorEq, and_false, exists_false, or_false, ih]
    constructor
    · rintro (h | ⟨y, hy, before, z, after, rfl, hbefore, hz⟩)
      · exact ⟨[], x, xs, rfl, by simp, h⟩
      · exact ⟨x :: before, z, after, rfl, List.forall_mem_cons.2 ⟨⟨y, hy⟩, hbefore⟩, hz⟩
    · rintro ⟨before, z, after, hsplit, hbefore, hz⟩
      cases before with
      | nil =>
        obtain ⟨rfl, rfl⟩ := List.cons.inj hsplit
        exact .inl hz
      | cons b before =>
        obtain ⟨rfl, rfl⟩ := List.cons.inj hsplit
        obtain ⟨⟨y, hy⟩, hbefore⟩ := List.forall_mem_cons.1 hbefore
        exact .inr ⟨y, hy, before, z, after, rfl, hbefore, hz⟩

theorem eq_ok_of_toOption {x : Except ε α} {a : α} (h : x.toOption = some a) : x = .ok a := by
  cases x with
  | error e => cases h
  | ok b => rw [Option.some.inj h]

theorem except_forM_eq_ok_iff {f : α → Except ε Unit} {xs : List α} : forM xs f = .ok () ↔ ∀ x ∈ xs, f x = .ok () := by
  induction xs with
  | nil => simp [pure, Except.pure]
  | cons x xs ih =>
    rw [List.forM_cons, except_bind_eq_ok_iff, List.forall_mem_cons, ← ih]
    exact ⟨fun ⟨_, hx, hxs⟩ => ⟨hx, hxs⟩, fun ⟨hx, hxs⟩ => ⟨(), hx, hxs⟩⟩

theorem except_mapM_eq_map_forM {f : α → Except ε β} {check : α → Except ε Unit} {g : α → β} {xs : List α}
    (h : ∀ x ∈ xs, f x = (fun _ => g x) <$> check x) : xs.mapM f = (fun _ => xs.map g) <$> forM xs check := by
  induction xs with
  | nil => rfl
  | cons x xs ih =>
    obtain ⟨hx, hxs⟩ := List.forall_mem_cons.1 h
    rw [List.mapM_cons, List.forM_cons, hx, ih hxs]
    cases check x with
    | error e => rfl
    | ok => cases forM xs check <;> rfl

/-- **A sequence ends with the first fault among its members.** -/
theorem except_forM_eq_error_iff {f : α → Except ε Unit} {xs : List α} {e : ε} : forM xs f = .error e ↔
    ∃ before x after, xs = before ++ x :: after ∧ (∀ y ∈ before, f y = .ok ()) ∧ f x = .error e := by
  constructor
  · intro h
    induction xs with
    | nil => cases h
    | cons x xs ih =>
      rw [List.forM_cons, except_bind_eq_error_iff] at h
      obtain hx | ⟨_, hx, h⟩ := h
      · exact ⟨[], x, xs, rfl, by simp, hx⟩
      · obtain ⟨before, z, after, rfl, hbefore, hz⟩ := ih h
        exact ⟨x :: before, z, after, rfl, List.forall_mem_cons.2 ⟨hx, hbefore⟩, hz⟩
  · rintro ⟨before, x, after, rfl, hbefore, hx⟩
    rw [List.forM_append, except_forM_eq_ok_iff.2 hbefore, List.forM_cons, hx]
    rfl

end Except

namespace Traced

variable {ω α β γ : Type}

theorem bind_def (x : Traced ω α) (f : α → Traced ω β) : x >>= f = Traced.bind x f := rfl

theorem id_map (x : Traced ω α) : id <$> x = x := by
  obtain ⟨r, o⟩ := x
  cases o <;> simp [Functor.map, Traced.bind]

theorem bind_assoc (x : Traced ω α) (f : α → Traced ω β) (g : β → Traced ω γ) :
    x >>= f >>= g = x >>= fun a => f a >>= g := by
  obtain ⟨r, o⟩ := x
  cases o with
  | error e => rfl
  | ok a =>
    simp only [bind_def, Traced.bind]
    cases (f a).outcome <;> simp

instance : LawfulMonad (Traced ω) := .mk' _ id_map (fun _ _ => rfl) bind_assoc

theorem outcome_bind (x : Traced ω α) (f : α → Traced ω β) : (x >>= f).outcome = x.outcome >>= fun a => (f a).outcome := by
  cases h : x.outcome with
  | error e => rw [bind_error h]; rfl
  | ok a => rw [bind_ok h]; rfl

theorem record_bind (x : Traced ω α) (f : α → Traced ω β) :
    (x >>= f).record = x.record ++ (match x.outcome with
      | .ok a => (f a).record
      | .error _ => []) := by
  cases h : x.outcome with
  | error e => rw [bind_error h, List.append_nil]
  | ok a => rw [bind_ok h]

theorem mem_record_bind_iff {x : Traced ω α} {f : α → Traced ω β} {w : ω} :
    w ∈ (x >>= f).record ↔ w ∈ x.record ∨ ∃ a, x.outcome = .ok a ∧ w ∈ (f a).record := by
  rw [record_bind, List.mem_append]
  cases x.outcome <;> simp

@[simp] theorem record_map (g : α → β) (x : Traced ω α) : (g <$> x).record = x.record := by
  obtain ⟨r, o⟩ := x
  cases o <;> simp [Functor.map, Traced.bind]

theorem outcome_map (g : α → β) (x : Traced ω α) : (g <$> x).outcome = g <$> x.outcome := by
  obtain ⟨r, o⟩ := x
  cases o <;> rfl

@[simp] theorem record_tell (w : ω) : (tell w).record = [w] := rfl

@[simp] theorem record_liftM (x : Except Fault α) : (liftM x : Traced ω α).record = [] := rfl

@[simp] theorem record_mapRecord {ω' : Type} (f : ω → ω') (x : Traced ω α) :
    (x.mapRecord f).record = x.record.map f := rfl

@[simp] theorem outcome_liftM (x : Except Fault α) : (liftM x : Traced ω α).outcome = x := rfl

theorem liftM_ok_bind (a : α) (f : α → Traced ω β) : (liftM (.ok a : Except Fault α) : Traced ω α) >>= f = f a := rfl

@[simp] theorem outcome_fail (e : Fault) : (fail e : Traced ω α).outcome = .error e := rfl

@[simp] theorem outcome_tell (w : ω) : (tell w).outcome = .ok () := rfl

theorem outcome_mapM (f : α → Traced ω β) (xs : List α) : (xs.mapM f).outcome = xs.mapM fun x => (f x).outcome := by
  induction xs with
  | nil => rfl
  | cons x xs ih =>
    rw [List.mapM_cons, List.mapM_cons, outcome_bind]
    refine bind_congr fun y => ?_
    rw [outcome_bind, ih]
    rfl

/-- **A sequence succeeds exactly when each of its members does.** -/
theorem outcome_mapM_eq_ok_iff {f : α → Traced ω β} {xs : List α} {ys : List β} :
    (xs.mapM f).outcome = .ok ys ↔ List.Forall₂ (fun x y => (f x).outcome = .ok y) xs ys := by
  rw [outcome_mapM, except_mapM_eq_ok_iff]

theorem outcome_mapM_congr {f : α → Traced ω γ} {g : β → Traced ω γ} {xs : List α} {ys : List β}
    (h : List.Forall₂ (fun x y => (g y).outcome = (f x).outcome) xs ys) : (ys.mapM g).outcome = (xs.mapM f).outcome := by
  rw [outcome_mapM, outcome_mapM]
  induction h with
  | nil => rfl
  | cons hxy _ ih => rw [List.mapM_cons, List.mapM_cons, hxy, ih]

theorem exists_outcome_mapM {f : α → Traced ω β} {xs : List α} (h : ∀ x ∈ xs, ∃ y, (f x).outcome = .ok y) :
    ∃ ys, (xs.mapM f).outcome = .ok ys := by
  rw [outcome_mapM]
  exact exists_except_mapM h

theorem record_mapM {f : α → Traced ω β} {xs : List α} {ys : List β} (h : (xs.mapM f).outcome = .ok ys) :
    (xs.mapM f).record = xs.flatMap (fun x => (f x).record) := by
  induction xs generalizing ys with
  | nil => rfl
  | cons x xs ih =>
    rw [List.mapM_cons] at h ⊢
    obtain ⟨y, hy, h⟩ := outcome_bind_eq_ok_iff.1 h
    obtain ⟨ys', hys, _⟩ := outcome_bind_eq_ok_iff.1 h
    simp only [record_bind, hy, hys, ih hys, record_pure, List.append_nil, List.flatMap_cons]

theorem exists_of_mem_record_mapM {f : α → Traced ω β} {xs : List α} {w : ω} (h : w ∈ (xs.mapM f).record) :
    ∃ x ∈ xs, w ∈ (f x).record := by
  induction xs with
  | nil => cases h
  | cons x xs ih =>
    rw [List.mapM_cons, mem_record_bind_iff] at h
    obtain h | ⟨_, -, h⟩ := h
    · exact ⟨x, List.mem_cons_self, h⟩
    · obtain h | ⟨_, -, h⟩ := mem_record_bind_iff.1 h
      · obtain ⟨y, hy, h⟩ := ih h
        exact ⟨y, List.mem_cons_of_mem _ hy, h⟩
      · cases h

theorem exists_of_mem_mapM {f : α → Traced ω β} {xs : List α} {ys : List β} (h : (xs.mapM f).outcome = .ok ys) {y : β}
    (hy : y ∈ ys) : ∃ x ∈ xs, (f x).outcome = .ok y :=
  exists_left_of_forall₂ (outcome_mapM_eq_ok_iff.1 h) hy

theorem outcome_bind_eq_error_iff {x : Traced ω α} {f : α → Traced ω β} {e : Fault} :
    (x >>= f).outcome = .error e ↔ x.outcome = .error e ∨ ∃ a, x.outcome = .ok a ∧ (f a).outcome = .error e := by
  rw [outcome_bind, except_bind_eq_error_iff]

theorem outcome_mapM_eq_error_iff {f : α → Traced ω β} {xs : List α} {e : Fault} : (xs.mapM f).outcome = .error e ↔
    ∃ before x after, xs = before ++ x :: after ∧ (∀ b ∈ before, ∃ y, (f b).outcome = .ok y) ∧ (f x).outcome = .error e := by
  rw [outcome_mapM, except_mapM_eq_error_iff]

end Traced

end Provision
