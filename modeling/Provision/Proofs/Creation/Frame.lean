import Provision.Proofs.Creation.Known
import Provision.Proofs.Text.Lines
/-!
# The comment that names a node

The text of a node's creation is a comment, made from the label of the node, and then what its kind gives for it
(`Node.body`).  Only the first line of the label is part of the comment.  So a creation has the command lines of its body
and, before them, those of the label after its first line; it has no others exactly where these lines hold none
(`commandLines_create`).
-/
namespace Provision

open Value (entry node)

namespace Step

theorem endsLine_of_mem_name {kind : Kind} : ∀ c ∈ kind.name.toList, Text.endsLine c = false := by
  have hall : kind.name.toList.all (fun c => !Text.endsLine c) = true := by cases kind <;> decide
  simpa using hall

end Step

namespace Spec

def labelText (spec : Spec) : String := if spec.label.isGiven then spec.label.toText else ""

end Spec

namespace Creation

@[simp] theorem steps_append (es fs : List CreationEvent) : steps (es ++ fs) = steps es ++ steps fs := by simp [steps]

@[simp] theorem steps_cons_step (s : Step Action) (es : List CreationEvent) : steps (.step s :: es) = s :: steps es := rfl

@[simp] theorem steps_log {α : Type} (x : Logged α) : steps (log x).record = [] := by
  simp [log, steps]

end Creation

namespace Node

def body (n : Node) (ctx : Context) : Creation Unit := do
  Visit.own ⟨n, ctx⟩
  createBelow n ctx

/-- The steps of a creation: the comment, the hooks, and the body between them. -/
theorem steps_create {n : Node} {ctx : Context} (h : (n.create ctx).outcome = .ok ()) :
    Creation.steps (n.create ctx).record = .frame n.spec.kind n.spec.label :: .hook n.hooks.preCreate ::
      (Creation.steps (n.body ctx).record ++ [.hook n.hooks.postCreate]) := by
  obtain ⟨hown, hbelow, hlabel, -⟩ := create_ok h
  rw [create_eq, body]
  simp only [Traced.record_bind, Creation.step, Traced.outcome_tell, Traced.record_tell, Traced.outcome_liftM,
    Traced.record_liftM, hown, hbelow, hlabel, Creation.steps_append, Creation.steps_log, Creation.steps_cons_step,
    List.append_assoc, List.cons_append, List.nil_append]

/-- **The text of a creation**: the comment, the hooks, and the body between them. -/
theorem creationText_create {n : Node} {ctx : Context} (h : (n.create ctx).outcome = .ok ()) :
    creationText (Creation.steps (n.create ctx).record) =
      "# " ++ Step.title n.spec.kind n.spec.label ++ "\n" ++ (hookScript n.hooks.preCreate ++
        (creationText (Creation.steps (n.body ctx).record) ++ hookScript n.hooks.postCreate)) := by
  rw [steps_create h]
  simp [creationText, String.join_append, String.join_cons, Step.script]

end Node

/-- The command lines of the comment that names a node: those of its label after the first line. -/
theorem commandLines_frame (spec : Spec) :
    Script.commandLines ("# " ++ Step.title spec.kind spec.label ++ "\n") =
      Script.commandsOn (Text.lines spec.labelText.toList).tail := by
  have hname : ∀ c ∈ ' ' :: spec.kind.name.toList, Text.endsLine c = false :=
    List.forall_mem_cons.2 ⟨by decide, Step.endsLine_of_mem_name⟩
  unfold Spec.labelText
  split
  · rename_i hgiven
    have htext : "# " ++ Step.title spec.kind spec.label ++ "\n" =
        String.ofList ('#' :: (' ' :: spec.kind.name.toList ++ [' '])) ++ spec.label.toText ++ "\n" := by
      rw [← String.toList_inj]
      simp [Step.title, hgiven]
    rw [htext]
    refine Script.commandLines_comment (fun c hc => ?_) _
    rcases List.mem_append.1 hc with hc | hc
    · exact hname c hc
    · rw [List.mem_singleton.1 hc]; decide
  · rename_i hgiven
    have htext : "# " ++ Step.title spec.kind spec.label ++ "\n" =
        String.ofList ('#' :: (' ' :: spec.kind.name.toList)) ++ "" ++ "\n" := by
      rw [← String.toList_inj]
      simp [Step.title, hgiven]
    rw [htext]
    exact Script.commandLines_comment hname ""

/-- **What the creation of a node without hooks runs.**  Its text is a comment and the body that its kind gives.  The command
lines of the body are not all: those of the label after its first line come before them.  There are no others exactly where
all these lines are blank or comments themselves. -/
theorem commandLines_create {n : Node} {ctx : Context} (h : (n.create ctx).outcome = .ok ()) (hpre : n.hooks.preCreate = "")
    (hpost : n.hooks.postCreate = "") :
    let text := creationText (Creation.steps (n.create ctx).record)
    let body := creationText (Creation.steps (n.body ctx).record)
    text = "# " ++ Step.title n.spec.kind n.spec.label ++ "\n" ++ body ∧
      Script.commandLines text = Script.commandsOn (Text.lines n.spec.labelText.toList).tail ++ Script.commandLines body ∧
      (Script.commandLines text = Script.commandLines body ↔
        ∀ l ∈ (Text.lines n.spec.labelText.toList).tail,
          Text.trim (Text.lineBody l) = [] ∨ (Text.trim (Text.lineBody l)).head? = some '#') := by
  intro text body
  have htext : text = "# " ++ Step.title n.spec.kind n.spec.label ++ "\n" ++ body := by
    simp only [text, Node.creationText_create h, hpre, hpost, hookScript, if_true, String.empty_append, String.append_empty]
    rfl
  have hlines : Script.commandLines text =
      Script.commandsOn (Text.lines n.spec.labelText.toList).tail ++ Script.commandLines body := by
    rw [htext, Script.commandLines_append_line, commandLines_frame]
  refine ⟨htext, hlines, ?_⟩
  rw [hlines, List.append_left_eq_self, Script.commandsOn_eq_nil_iff]

/-- A disk with a swap device, under a name whose second line is a comment too. -/
theorem commandLines_create_of_commented_name :
    let raw := node "disk" [entry "device" (.text "/dev/sda"), entry "content" (node "swap" [])]
    ∃ n, (Node.read raw ⟨"disk.main", .disk, some (.text "main\n# spare"), none⟩).outcome = .ok n ∧
      (n.create {}).outcome = .ok () ∧ n.hooks.preCreate = "" ∧ n.hooks.postCreate = "" ∧
      Script.commandLines (creationText (Creation.steps (n.create {}).record)) =
        Script.commandLines (creationText (Creation.steps (n.body {}).record)) := by
  intro raw
  have hread : (Node.read raw ⟨"disk.main", .disk, some (.text "main\n# spare"), none⟩).outcome.toOption.map (fun n =>
      (n.hooks, (n.create {}).outcome.toOption, n.spec.labelText)) = some ({}, some (), "main\n# spare") := by decide +kernel
  obtain ⟨n, hn, hparts⟩ := Option.map_eq_some_iff.1 hread
  simp only [Prod.mk.injEq] at hparts
  obtain ⟨hhooks, hcreate, hlabel⟩ := hparts
  replace hcreate := eq_ok_of_toOption hcreate
  refine ⟨n, eq_ok_of_toOption hn, hcreate, by rw [hhooks], by rw [hhooks], ?_⟩
  refine (commandLines_create hcreate (by rw [hhooks]) (by rw [hhooks])).2.2.2 ?_
  rw [hlabel]
  decide +kernel

/-- The second line of a name is a command of its own. -/
theorem command_in_frame_of_two_line_name :
    let raw := node "disk" [entry "device" (.text "/dev/sda")]
    ∃ n, (Node.read raw ⟨"disk.main\nreboot", .disk, some (.text "main\nreboot"), none⟩).outcome = .ok n ∧
      (n.create {}).outcome = .ok () ∧ n.hooks = {} ∧ n.children = [] ∧
      Script.commandLines (creationText (Creation.steps (n.create {}).record)) = ["reboot"] ∧
      Script.commandLines (creationText (Creation.steps (n.body {}).record)) = [] := by
  intro raw
  have hread : (Node.read raw ⟨"disk.main\nreboot", .disk, some (.text "main\nreboot"), none⟩).outcome.toOption.map (fun n =>
      ((n.create {}).outcome.toOption, n.hooks, n.children.length,
        Script.commandLines (creationText (Creation.steps (n.create {}).record)),
        Script.commandLines (creationText (Creation.steps (n.body {}).record)))) =
      some (some (), {}, 0, ["reboot"], []) := by decide +kernel
  obtain ⟨n, hn, hparts⟩ := Option.map_eq_some_iff.1 hread
  simp only [Prod.mk.injEq] at hparts
  obtain ⟨hcreate, hhooks, hchildren, htext, hbody⟩ := hparts
  exact ⟨n, eq_ok_of_toOption hn, eq_ok_of_toOption hcreate, hhooks, List.length_eq_zero_iff.1 hchildren, htext, hbody⟩

end Provision
