import Provision.Proofs.Faults.Documents
import Provision.Proofs.Faults.Nearest
import Provision.Proofs.Faults.Overlong
import Provision.Proofs.Faults.Scanning
/-!
# What is wrong with a document

A document that cannot be read is not one of its language, or it has a scalar that does not denote a value of its type
(`Json.failsIn_parse`, `Yaml.failsIn_parse`).  `Yaml.Escapes` says of a YAML text when the second happens: where nothing that
makes it no YAML comes to light before.
-/
namespace Provision

open Fault (IsReading)

namespace Json

@[grind .] theorem isReading_stringFrom (acc : List Nat) (s : List Char) : FailsIn IsReading (stringFrom acc s) :=
  (failsIn_stringFrom acc s).mono fun _ => Fault.IsUnparsable.isReading

@[grind .] theorem failsIn_number (negative : Bool) (s : List Char) : FailsIn IsReading (number negative s) := by
  fun_cases number negative s <;> grind

@[grind .] theorem failsIn_scalar (s : List Char) : FailsIn IsReading (scalar s) := by
  unfold scalar
  split
  · exact .ok _
  · split <;> exact failsIn_number _ _

mutual

theorem failsIn_value : ∀ (fuel : Nat) (s : List Char), FailsIn IsReading (value fuel s)
  | 0, _ => by simp [value]
  | fuel + 1, s => by
    have hitems := failsIn_items fuel
    have hmembers := failsIn_members fuel
    unfold value
    split <;> grind

theorem failsIn_items : ∀ (fuel : Nat) (s : List Char), FailsIn IsReading (items fuel s)
  | 0, _ => by simp [items]
  | fuel + 1, s => by
    have hitems := failsIn_items fuel
    rw [items, FailsIn.bind_iff]
    refine ⟨failsIn_value fuel s, fun (v, rest) _ => ?_⟩
    dsimp only
    split <;> grind

theorem failsIn_members : ∀ (fuel : Nat) (s : List Char), FailsIn IsReading (members fuel s)
  | 0, _ => by simp [members]
  | fuel + 1, s => by
    have hvalue := failsIn_value fuel
    have hmembers := failsIn_members fuel
    unfold members
    split
    · rw [FailsIn.bind_iff]
      refine ⟨isReading_stringFrom _ _, fun (k, rest) _ => ?_⟩
      dsimp only
      split
      · rw [FailsIn.bind_iff]
        refine ⟨hvalue _, fun (v, rest) _ => ?_⟩
        dsimp only
        split <;> grind
      · simp
    · simp

end

/-- **A JSON text that cannot be read** is none, or it has a number of too many digits. -/
theorem failsIn_parse (text : String) : FailsIn IsReading (parse text) := by
  have hvalue := failsIn_value (2 * text.toList.length + 1) (skip text.toList)
  grind [parse]

end Json

namespace Yaml

@[grind .] theorem failsIn_closed (v : Value) : FailsIn (· = .misuse .endless) (closed v) := by
  unfold closed
  split <;> simp

/-- **A YAML text that cannot be read** is none, or it has a scalar that does not denote a value of its type, or its
value has no end. -/
theorem failsIn_parse (text : String) : FailsIn IsReading (parse text) := by
  refine FailsIn.bind_iff.2 ⟨Tree.failsIn_ofText _, fun t _ => ?_⟩
  cases t with
  | none => exact .pure _
  | some t =>
    refine FailsIn.bind_iff.2 ⟨FailsIn.mapError_iff.2 fun e he => (Tree.cause_of_value he).isReading, fun v _ => ?_⟩
    exact (failsIn_closed v).mono fun f hf => hf ▸ Fault.isReading_misuse _

/-- **A YAML text is neither read nor refused.** -/
inductive Escapes (text : String) : Misuse → Prop
  /-- An escape names no character, and nothing is wrong with the tokens before it. -/
  | token {m : Misuse} (hstumbles : Tokens.Stumbles text.toList m)
      (hout : Assembly.RunsOut (Tokens.ofText text.toList).list) : Escapes text m
  /-- Of all that is wrong with its tree nothing is nearer to the root. -/
  | tree {t : Tree} {before after : List DeepFault} {depth : Nat} {m : Misuse}
      (ht : Tree.ofText text.toList = .ok (some t)) (hfaults : t.faults = before ++ (depth, .misuse m) :: after)
      (hbefore : ∀ d ∈ before, depth < d.1) (hafter : ∀ d ∈ after, depth ≤ d.1) : Escapes text m

theorem Escapes.ne_endless {text : String} {m : Misuse} (h : Escapes text m) : m ≠ .endless := by
  cases h with
  | token hstumbles => exact hstumbles.ne_endless
  | tree _ hfaults =>
    have hcause := Tree.caused_faults _ _ (hfaults ▸ List.mem_append_right _ List.mem_cons_self)
    exact fun hm => hcause.ne_endless (congrArg Fault.misuse hm)

theorem mapError_eq_error_iff {ε ε' α : Type} {x : Except ε α} {g : ε → ε'} {e' : ε'} :
    x.mapError g = .error e' ↔ ∃ e, x = .error e ∧ g e = e' := by
  cases x <;> simp [Except.mapError]

/-- **Where the reading of a YAML text escapes**, but for a value that is made and has no end. -/
theorem parse_eq_misuse_iff {text : String} {m : Misuse} (hm : m ≠ .endless) :
    parse text = .error (.misuse m) ↔ Escapes text m := by
  have hclosed (v : Value) : closed v ≠ .error (.misuse m) := fun h =>
    hm (Fault.misuse.inj (failsIn_closed v _ h))
  rw [parse, except_bind_eq_error_iff, Tree.ofText_eq_error_iff (by simp), Tokens.fault_eq_misuse_iff]
  constructor
  · rintro (⟨hstumbles, hout⟩ | ⟨t, ht, h⟩)
    · exact .token hstumbles hout
    · cases t with
      | none => cases h
      | some t =>
        obtain h | ⟨v, -, h⟩ := except_bind_eq_error_iff.1 h
        · obtain ⟨⟨depth, f⟩, he, rfl⟩ := mapError_eq_error_iff.1 h
          obtain ⟨before, after, hfaults, hbefore, hafter⟩ := Tree.value_eq_error_iff.1 he
          exact .tree ht hfaults hbefore hafter
        · exact absurd h (hclosed v)
  · intro h
    cases h with
    | token hstumbles hout => exact .inl ⟨hstumbles, hout⟩
    | tree ht hfaults hbefore hafter =>
      rename_i t _ _ depth
      have hvalue : t.value = .error (depth, .misuse m) := Tree.value_eq_error_iff.2 ⟨_, _, hfaults, hbefore, hafter⟩
      exact .inr ⟨_, ht, except_bind_eq_error_iff.2 (.inl (mapError_eq_error_iff.2 ⟨_, hvalue, rfl⟩))⟩

end Yaml

end Provision
