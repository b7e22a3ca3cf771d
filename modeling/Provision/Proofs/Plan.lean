import Provision.Compile
import Provision.Proofs.Traced
/-!
# What is made of a layout

Everything that a compilation makes of a layout once it is read is its `Plan`: steps and mounts that are still to be written
out.  A compilation succeeds with a plan written out, or fails where the reading or the plan fails (`outcome_compile_eq`).
-/
namespace Provision

structure Plan where
  order : List DeviceRef
  creation : List (Step Action)
  fragment : MountFragment
  facts : List Fact
  tools : List String
  metadata : Value.Entries

namespace Plan

def compiled (p : Plan) : Compiled :=
  ⟨p.order, Layout.createPreamble ++ creationText p.creation, Layout.mountText p.fragment, p.facts, p.tools, p.metadata⟩

end Plan

namespace Layout

def creationSteps (l : Layout) (root : String) (order : List DeviceRef) : Except Fault (List (Step Action)) :=
  (stepsOf (l.creation root order)).outcome

def plan (l : Layout) (root : String) : Except Fault Plan := do
  let metadata ← l.metadata
  let order ← Requirement.sort (Metadata.requirements metadata) l.refs
  let creation ← l.creationSteps root order
  let fragment ← (l.mountFragment root order).outcome
  let facts ← l.facts
  let tools ← l.tools
  return ⟨order, creation, fragment, facts, tools, metadata⟩

end Layout

/-- **A compilation** reads a layout and writes out its plan. -/
theorem outcome_compile_eq (tree : Value) (root : String) :
    (compile tree root).outcome = (Layout.read tree).outcome >>= fun l => Plan.compiled <$> l.plan root := by
  simp only [compile, Layout.plan, Traced.outcome_bind, Traced.outcome_liftM, Layout.order, logDebug, logInfo,
    Traced.outcome_tell, Layout.createScript, Layout.mountScript, Layout.creationSteps, Traced.outcome_pure, map_bind,
    bind_assoc, except_ok_bind]
  rfl

def Plan.ofTree (tree : Value) (root : String) : Except Fault Plan := (Layout.read tree).outcome >>= fun l => l.plan root

theorem outcome_compile_eq_ofTree (tree : Value) (root : String) :
    (compile tree root).outcome = Plan.compiled <$> Plan.ofTree tree root := by
  rw [outcome_compile_eq, Plan.ofTree, map_bind]

theorem compile_eq_ok_iff {tree : Value} {root : String} {c : Compiled} : (compile tree root).outcome = .ok c ↔
    ∃ l p, (Layout.read tree).outcome = .ok l ∧ l.plan root = .ok p ∧ p.compiled = c := by
  rw [outcome_compile_eq, except_bind_eq_ok_iff]
  refine exists_congr fun l => ?_
  cases l.plan root <;> simp [Functor.map, Except.map]

theorem Layout.plan_eq_ok {l : Layout} {root : String} {p : Plan} (h : l.plan root = .ok p) :
    l.metadata = .ok p.metadata ∧ Requirement.sort (Metadata.requirements p.metadata) l.refs = .ok p.order ∧
      l.creationSteps root p.order = .ok p.creation ∧ (l.mountFragment root p.order).outcome = .ok p.fragment ∧
      l.facts = .ok p.facts ∧ l.tools = .ok p.tools := by
  unfold Layout.plan at h
  simp only [except_bind_eq_ok_iff, pure, Except.pure, Except.ok.injEq] at h
  obtain ⟨metadata, hmetadata, order, horder, creation, hcreation, fragment, hfragment, facts, hfacts, tools, htools,
    rfl⟩ := h
  exact ⟨hmetadata, horder, hcreation, hfragment, hfacts, htools⟩

theorem Layout.creationSteps_eq_ok_iff {l : Layout} {root : String} {order : List DeviceRef} {steps : List (Step Action)} :
    l.creationSteps root order = .ok steps ↔
      (l.creation root order).outcome = .ok () ∧ Creation.steps (l.creation root order).record = steps := by
  unfold creationSteps stepsOf
  cases (l.creation root order).outcome <;> simp [Except.map]

namespace Compiled

structure Alike (c c' : Compiled) : Prop where
  order : c.order = c'.order
  facts : c.facts = c'.facts
  tools : c.tools = c'.tools
  metadata : c.metadata = c'.metadata

end Compiled

def mountSections (activation filesystems : String) : String :=
  Layout.mountPreamble ++ "# activate devices\n" ++ activation ++ "\n# mount filesystems\n" ++ filesystems

end Provision
