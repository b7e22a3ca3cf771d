import Provision.Proofs.Faults.Options
/-!
# What is wrong with a layout

Reading a layout fails for what the layout says, never for the machine (`Layout.failsIn_read`).
-/
namespace Provision

open Fault (IsRefusal IsInput)

namespace Spec

theorem failsIn_read (p : Place) (d : Declared) : FailsIn IsInput (read p d) := by
  intro f hf
  obtain ⟨option, reading, -, hcheck⟩ := read_eq_error_iff.1 hf
  obtain ⟨-, cause, -, rfl⟩ | hkind := d.failsIn_check option reading f hcheck
  · trivial
  · unfold Value.refusal at hkind
    exact Fault.isInput_of_kind (by split at hkind <;> simp [hkind])

theorem failsIn_finish (p : Place) (d : Declared) (spec : DatasetType → TableFormat → Spec) :
    FailsIn IsRefusal (finish p d spec) := by
  fun_cases finish p d spec <;> grind [readDatasetType, readTableFormat]

end Spec

namespace Node

theorem failsIn_unknownKeys (es : Value.Entries) (known : List String) :
    FailsIn (fun f => (∃ e ∈ es, ∀ s, e.1 ≠ .text s) ∧ f = .misuse .wrongOperand) (unknownKeys es known) := by
  unfold unknownKeys
  dsimp only
  split
  · rename_i h
    obtain ⟨unknown, hunknown, hnone⟩ := List.any_eq_true.1 h
    obtain ⟨e, he, hkey⟩ := List.mem_filterMap.1 hunknown
    refine .throw_iff.2 ⟨⟨e, he, fun s hs => ?_⟩, rfl⟩
    rw [hs] at hkey
    grind
  · exact .ok _

/-- The kind of a node is refused, or it is a value that nothing can be looked up by. -/
theorem failsIn_checkKind (path kind : String) (es : Value.Entries) :
    FailsIn (fun f => f.IsRefusal ∨ ((∃ v, Value.Entries.get? es (.text "type") = some v ∧ v.isKey = false) ∧
      f = .misuse .unhashable)) (checkKind path kind es) := by
  fun_cases checkKind path kind es <;> simp_all
  case case5 _ hkey =>
    cases htype : Value.Entries.get? es (.text "type") with
    | none => simp [htype, Value.isKey] at hkey
    | some v => exact ⟨v, rfl, by simpa [htype] using hkey⟩

theorem failsIn_contentKind (slot : Slot) (path : String) (v : Value) :
    FailsIn (fun f => f.IsRefusal ∨ ((∃ es, v = .map es ∧ (Value.Entries.field es "type").isKey = false) ∧
      f = .misuse .unhashable)) (contentKind slot path v) := by
  fun_cases contentKind slot path v <;> simp_all

theorem unknownKeys_of_no_text {es : Value.Entries} {e : Value × Value} (he : e ∈ es) (h : ∀ s, e.1 ≠ .text s)
    (known : List String) : unknownKeys es known = .error (.misuse .wrongOperand) := by
  unfold unknownKeys
  dsimp only
  rw [if_pos]
  · rfl
  · refine List.any_eq_true.2 ⟨none, List.mem_filterMap.2 ⟨e, he, ?_⟩, rfl⟩
    split
    · rename_i s hs
      exact absurd hs (h s)
    · rfl

theorem checkKind_of_no_key {es : Value.Entries} {v : Value} (hv : Value.Entries.get? es (.text "type") = some v)
    (h : v.isKey = false) (path kind : String) : checkKind path kind es = .error (.misuse .unhashable) := by
  cases v <;> simp_all [checkKind, Value.isKey]

theorem contentKind_of_no_key {es : Value.Entries} (h : (Value.Entries.field es "type").isKey = false) (slot : Slot)
    (path : String) : contentKind slot path (.map es) = .error (.misuse .unhashable) := by
  unfold contentKind
  cases htype : Value.Entries.field es "type" <;> simp_all [Value.isKey]

theorem failsIn_checkIndices (path : String) (seen : List (Nat × Nat)) (position : Nat) (ns : List Node) :
    FailsIn IsRefusal (checkIndices path seen position ns) := by
  fun_induction checkIndices path seen position ns <;> simp_all

theorem failsIn_requireItems (path : String) (v : Value) : FailsIn IsRefusal (requireItems path v) := by
  fun_cases requireItems path v <;> simp

theorem failsIn_requireEntries (path : String) (kind : Kind) (v : Value) :
    FailsIn IsRefusal (requireEntries path kind v) := by
  fun_cases requireEntries path kind v <;> simp

/-- Below a node everything is read from a smaller value. -/
theorem failsIn_readBelow_of (raw : Value) (h : ∀ raw' p', sizeOf raw' < sizeOf raw → FailsIn IsInput (read raw' p').outcome)
    (d : Declared) (holding : Kind.Holding) : FailsIn IsInput (readBelow raw d holding).outcome := by
  unfold readBelow
  split
  · exact .ok _
  · split
    · exact .ok _
    · rename_i v hv _
      exact .outcome_bind ((failsIn_contentKind _ _ v).mono (by grind)) fun _ => .outcome_bind (h v _ hv) fun _ => .ok _
  · split
    · exact .ok _
    · rename_i v hv _
      refine .outcome_bind ((failsIn_requireItems _ v).mono fun _ => IsRefusal.isInput) fun _ => ?_
      refine .outcome_bind (.outcome_mapM fun x _ => h x.1.1 _ (Nat.lt_trans x.1.2 hv)) fun nodes => ?_
      exact .outcome_bind ((failsIn_checkIndices _ _ _ nodes).mono fun _ => IsRefusal.isInput) fun _ => .ok _
  · split
    · exact .ok _
    · rename_i v hv _
      refine .outcome_bind ((failsIn_requireEntries _ _ v).mono fun _ => IsRefusal.isInput) fun _ => ?_
      exact .outcome_bind (.outcome_mapM fun e _ => h e.1.2 _ (Nat.lt_trans e.2 hv)) fun _ => .ok _

theorem outcome_warnUnknown (path : String) (unknown : List String) : (warnUnknown path unknown).outcome = .ok () := by
  unfold warnUnknown
  split <;> rfl

theorem failsIn_read (raw : Value) (p : Place) : FailsIn IsInput (read raw p).outcome := by
  have hbelow := failsIn_readBelow_of raw fun raw' p' _ => failsIn_read raw' p'
  unfold read
  refine .outcome_bind (Value.failsIn_requireWritable _) fun _ => ?_
  split
  · rename_i es
    refine .outcome_bind ((failsIn_checkKind _ _ es).mono (by grind)) fun _ => ?_
    refine .outcome_bind ((failsIn_unknownKeys es _).mono (by grind)) fun unknown => ?_
    refine .outcome_bind (outcome_warnUnknown _ unknown ▸ .ok ()) fun _ => ?_
    refine .outcome_bind (Spec.failsIn_read _ _) fun spec => .outcome_bind (hbelow _ _) fun _ => ?_
    refine .outcome_bind ((Spec.failsIn_finish _ _ spec).mono fun _ => IsRefusal.isInput) fun _ => ?_
    exact .outcome_bind (Value.failsIn_requireWritable _) fun _ => .ok _
  · simp
termination_by sizeOf raw

end Node

namespace Layout

theorem failsIn_readGroup (es : Value.Entries) (g : Group) : FailsIn IsInput (readGroup es g).outcome := by
  unfold readGroup
  dsimp only
  split
  · exact .ok _
  · split
    · exact .outcome_bind (.outcome_mapM fun e _ => Node.failsIn_read e.2 _) fun _ => .ok _
    · simp

/-- **Reading a layout fails only for what the layout says.** -/
theorem failsIn_read (tree : Value) : FailsIn IsInput (read tree).outcome := by
  unfold read
  split
  · rename_i es _
    have hgroups : FailsIn IsInput (Group.all.mapM (fun g => do
        let nodes ← readGroup es g
        return (g, nodes)) : Logged (List (Group × List Node))).outcome :=
      .outcome_mapM fun g _ => .outcome_bind (failsIn_readGroup es g) fun _ => .ok _
    refine .outcome_bind ((Node.failsIn_unknownKeys es _).mono (by grind)) fun unknown => ?_
    dsimp only
    split
    · exact .outcome_bind (by simp) fun _ => .outcome_bind hgroups fun _ => .ok _
    · exact .outcome_bind hgroups fun _ => .ok _
  · simp

end Layout

end Provision
