import Provision.Proofs.Traced
/-!
# The faults that a computation can end with

`FailsIn P x` says that a result `x` is a fault only if `P` holds of it.  It holds of a sequence when it holds of its
parts, so what a program can end with follows from what each of its functions can end with.  `Gives P x` says the same of a
result that is none.  `Fault.IsReading` are the
faults of a text that cannot be read (`Fault.IsUnparsable` where it is not of its language), `Fault.IsFlaw` those that say
what is wrong with a layout, and `Fault.IsInput` all that lie in the input and not in the machine.
-/
namespace Provision

/-- A result that is a fault only of one kind. -/
def FailsIn {α : Type} (P : Fault → Prop) (x : Except Fault α) : Prop := ∀ f, x = .error f → P f

namespace FailsIn

variable {ω α β : Type} {P Q : Fault → Prop}

@[simp, grind .] theorem ok (a : α) : FailsIn P (.ok a) := fun _ h => nomatch h

@[simp, grind .] theorem pure (a : α) : FailsIn P (Pure.pure a : Except Fault α) := ok a

@[simp, grind =] theorem error_iff {f : Fault} : FailsIn P (.error f : Except Fault α) ↔ P f :=
  ⟨fun h => h f rfl, fun h _ hg => Except.error.inj hg ▸ h⟩

@[simp, grind =] theorem throw_iff {f : Fault} : FailsIn P (throw f : Except Fault α) ↔ P f := error_iff

@[grind →] theorem of_eq_error {x : Except Fault α} {f : Fault} (h : FailsIn P x) (hx : x = .error f) : P f := h f hx

/-- **A sequence fails only as its parts do.** -/
@[simp, grind =] theorem bind_iff {x : Except Fault α} {f : α → Except Fault β} :
    FailsIn P (x >>= f) ↔ FailsIn P x ∧ ∀ a, x = .ok a → FailsIn P (f a) := by
  cases x <;> simp [bind, Except.bind]

theorem bind {x : Except Fault α} {f : α → Except Fault β} (hx : FailsIn P x) (hf : ∀ a, FailsIn P (f a)) :
    FailsIn P (x >>= f) := bind_iff.2 ⟨hx, fun a _ => hf a⟩

@[simp, grind =] theorem map_iff {x : Except Fault α} {f : α → β} : FailsIn P (f <$> x) ↔ FailsIn P x := by
  cases x <;> simp [Functor.map, Except.map]

@[simp, grind =] theorem exceptMap_iff {x : Except Fault α} {f : α → β} : FailsIn P (x.map f) ↔ FailsIn P x := map_iff

@[simp, grind =] theorem mapError_iff {ε : Type} {x : Except ε α} {g : ε → Fault} :
    FailsIn P (x.mapError g) ↔ ∀ e, x = .error e → P (g e) := by
  cases x <;> simp [Except.mapError]

theorem mono {x : Except Fault α} (h : FailsIn P x) (hPQ : ∀ f, P f → Q f) : FailsIn Q x := fun f hf => hPQ f (h f hf)

theorem mapM {f : α → Except Fault β} {xs : List α} (h : ∀ x ∈ xs, FailsIn P (f x)) : FailsIn P (xs.mapM f) := by
  induction xs with
  | nil => exact pure []
  | cons x xs ih =>
    obtain ⟨hx, hxs⟩ := List.forall_mem_cons.1 h
    rw [List.mapM_cons]
    simp [hx, ih hxs]

theorem foldlM {f : β → α → Except Fault β} {xs : List α} (h : ∀ b, ∀ x ∈ xs, FailsIn P (f b x)) (b : β) :
    FailsIn P (xs.foldlM f b) := by
  induction xs generalizing b with
  | nil => exact pure b
  | cons x xs ih =>
    rw [List.foldlM_cons, bind_iff]
    exact ⟨h b x List.mem_cons_self, fun c _ => ih (fun b y hy => h b y (List.mem_cons_of_mem _ hy)) c⟩

/-! ### Computations with a record -/

theorem outcome_bind {x : Traced ω α} {f : α → Traced ω β} (hx : FailsIn P x.outcome) (hf : ∀ a, FailsIn P (f a).outcome) :
    FailsIn P (x >>= f).outcome := by
  rw [Traced.outcome_bind]
  exact hx.bind hf

theorem outcome_mapM {f : α → Traced ω β} {xs : List α} (h : ∀ x ∈ xs, FailsIn P (f x).outcome) :
    FailsIn P (xs.mapM f).outcome := by
  induction xs with
  | nil => exact .ok []
  | cons x xs ih =>
    obtain ⟨hx, hxs⟩ := List.forall_mem_cons.1 h
    rw [List.mapM_cons]
    exact hx.outcome_bind fun _ => (ih hxs).outcome_bind fun _ => .ok _

theorem outcome_forM {f : α → Traced ω Unit} {xs : List α} (h : ∀ x ∈ xs, FailsIn P (f x).outcome) :
    FailsIn P (xs.forM f).outcome := by
  induction xs with
  | nil => exact .ok ()
  | cons x xs ih =>
    obtain ⟨hx, hxs⟩ := List.forall_mem_cons.1 h
    exact hx.outcome_bind fun _ => ih hxs

end FailsIn

/-- A result that is of a kind where there is one. -/
def Gives {α : Type} (P : α → Prop) (x : Except Fault α) : Prop := ∀ a, x = .ok a → P a

namespace Gives

variable {α β : Type} {P : α → Prop} {R : β → Prop}

theorem ok {a : α} (h : P a) : Gives P (.ok a) := fun _ hb => Except.ok.inj hb ▸ h

theorem pure {a : α} (h : P a) : Gives P (Pure.pure a) := ok h

theorem error (f : Fault) : Gives P (.error f) := fun _ h => nomatch h

theorem bind {x : Except Fault α} {f : α → Except Fault β} (hx : Gives P x) (hf : ∀ a, P a → Gives R (f a)) :
    Gives R (x >>= f) := by
  cases x with
  | error e => exact error e
  | ok a => exact hf a (hx a rfl)

theorem map {x : Except Fault α} {f : α → β} (hx : Gives (fun a => R (f a)) x) : Gives R (x.map f) := by
  cases x with
  | error e => exact error e
  | ok a => exact ok (hx a rfl)

theorem guarded {p : Prop} [Decidable p] {x : Except Fault β} {f : Fault} {g : PUnit → Except Fault β} (h : Gives R x) :
    Gives R (if p then throw f >>= g else x) := by
  split
  · exact error f
  · exact h

end Gives

namespace Fault

def IsReading (f : Fault) : Prop := f = .unparsable ∨ ∃ m, f = .misuse m

@[simp, grind .] theorem isReading_unparsable : IsReading .unparsable := .inl rfl

@[simp, grind .] theorem isReading_misuse (m : Misuse) : IsReading (.misuse m) := .inr ⟨m, rfl⟩

def IsUnparsable (f : Fault) : Prop := f = .unparsable

@[simp, grind .] theorem isUnparsable_unparsable : IsUnparsable .unparsable := rfl

@[grind →] theorem IsUnparsable.isReading {f : Fault} (h : f.IsUnparsable) : f.IsReading := .inl h

/-- The faults that lie in the input and not in the machine. -/
@[simp, grind =] def IsInput : Fault → Prop
  | layout _ _ | notLayout _ | unknownGroups _ | unknownNodeType _ | unparsable | unreadable _ _ | cycle _
  | unsupportedNaming _ | badQuoting _ | unknownFact _ | alreadyRegistered _ | undecodable | misuse _ => True
  | scriptFailed _ _ | scriptNotStarted _ _ | notRoot | missingTools _ | interrupted | system _ => False

/-- The faults that say what is wrong with a layout. -/
def IsFlaw (f : Fault) : Prop := f.kind = .layout

theorem isFlaw_iff {f : Fault} : f.IsFlaw ↔ Value.areWritable f.quoted = true ∧ f.subject = .layout := by
  rw [IsFlaw, kind]
  split <;> simp_all

/-- What is wrong with a layout can only be said of values that can be written. -/
@[simp, grind =] theorem isFlaw_layout_iff {path : String} {flaw : Flaw} :
    (layout path flaw).IsFlaw ↔ Value.areWritable flaw.quoted = true := by
  simp [isFlaw_iff, quoted, subject]

def IsRefusal (f : Fault) : Prop := ∃ path flaw, f = .layout path flaw

@[simp, grind .] theorem isRefusal_layout (path : String) (flaw : Flaw) : (layout path flaw).IsRefusal := ⟨path, flaw, rfl⟩

@[simp, grind .] theorem not_isRefusal_misuse (m : Misuse) : ¬ (misuse m).IsRefusal := by
  rintro ⟨path, flaw, h⟩
  cases h

theorem IsRefusal.not_writable {f : Fault} (h : f.IsRefusal) (hf : ¬ f.IsFlaw) : Value.areWritable f.quoted = false := by
  obtain ⟨path, flaw, rfl⟩ := h
  simpa [quoted] using hf

@[grind →] theorem IsRefusal.isInput {f : Fault} (h : f.IsRefusal) : f.IsInput := by
  obtain ⟨path, flaw, rfl⟩ := h
  trivial

@[simp, grind .] theorem isFlaw_notLayout (v : Value) : (notLayout v).IsFlaw := rfl

@[simp, grind .] theorem isFlaw_unknownGroups (names : List String) : (unknownGroups names).IsFlaw := rfl

@[simp, grind .] theorem not_isFlaw_misuse (m : Misuse) : ¬ (misuse m).IsFlaw := by
  simp [IsFlaw]

theorem kind_of_not_writable {f : Fault} (h : Value.areWritable f.quoted = false) : f.kind = .misuse .unwritable := by
  simp [kind, h]

theorem isInput_of_kind {f : Fault} (h : f.kind = .layout ∨ ∃ m, f.kind = .misuse m) : f.IsInput := by
  cases f <;> simp_all [kind, quoted, subject]

theorem IsReading.isInput {f : Fault} (h : f.IsReading) : f.IsInput := by
  obtain rfl | ⟨m, rfl⟩ := h <;> trivial

theorem IsInput.ne_interrupted {f : Fault} (h : f.IsInput) : f ≠ .interrupted := by
  rintro rfl
  exact h

end Fault

/-- The fault of a text that is not of its language is no misuse. -/
theorem FailsIn.ne_misuse {α : Type} {x : Except Fault α} (h : FailsIn Fault.IsUnparsable x) (m : Misuse) :
    x ≠ .error (.misuse m) := fun hx => nomatch (h _ hx : Fault.misuse m = .unparsable)

end Provision
