import Provision.Proofs.Layout.Typed
/-!
# Where a walk ends

A walk of sound visits can end early where it names the device on which a partition places what it holds
(`Visit.naming`): no partition of the device has a name, or the number of the partition has too many digits
(`Visit.Sound.naming_cases`).  A creation can end before that at a number that its commands say (`Visit.check`).  It
ends with the first node where anything of this happens (`Node.outcome_create`), and where there is none the other walks
succeed as well.
-/
namespace Provision

namespace DevicePath

def beginnings : List String := ["/dev/sd", "/dev/vd", "/dev/disk/", "/dev/nvme", "/dev/md/", "/dev/mmcblk"]

/-- Whether the partitions of a device have names: its path begins in a known way and goes on in the same line. -/
def IsNameable (device : String) : Prop :=
  ∃ beginning ∈ beginnings, ∃ tail, device.toList = beginning.toList ++ tail ∧ tail ≠ [] ∧ '\n' ∉ tail

theorem isTail_iff {s : List Char} : isTail s = true ↔ s ≠ [] ∧ '\n' ∉ s := by
  rw [isTail, Bool.and_eq_true, Bool.not_eq_true', List.isEmpty_eq_false_iff, List.all_eq_true]
  simp only [bne_iff_ne, ne_eq]
  exact and_congr_right' ⟨fun h hc => h _ hc rfl, fun h c hc e => h (e ▸ hc)⟩

theorem extends_iff {beginning s : List Char} :
    extends_ beginning s = true ↔ ∃ tail, s = beginning ++ tail ∧ tail ≠ [] ∧ '\n' ∉ tail := by
  rw [extends_, Bool.and_eq_true, List.isPrefixOf_iff_prefix, isTail_iff]
  constructor
  · rintro ⟨⟨tail, rfl⟩, htail⟩
    rw [List.drop_left] at htail
    exact ⟨tail, rfl, htail⟩
  · rintro ⟨tail, rfl, htail⟩
    rw [List.drop_left]
    exact ⟨List.prefix_append .., htail⟩

theorem isSome_family?_iff {device : String} : (family? device).isSome = true ↔ IsNameable device := by
  unfold family? IsNameable
  simp only [← extends_iff, beginnings, List.exists_mem_cons_iff, List.not_mem_nil, false_and, exists_false, or_false,
    List.any_cons, List.any_nil, Bool.or_false, Bool.or_eq_true]
  split_ifs with hletters hlinks hnumbers
  · exact iff_of_true rfl (hletters.elim .inl (fun h => .inr (.inl h)))
  · exact iff_of_true rfl (.inr (.inr (.inl hlinks)))
  · exact iff_of_true rfl (.inr (.inr (.inr hnumbers)))
  · refine iff_of_false Bool.false_ne_true ?_
    rintro (h | h | h | h)
    · exact hletters (.inl h)
    · exact hletters (.inr h)
    · exact hlinks h
    · exact hnumbers h

theorem partition_cases (device number : String) : (IsNameable device ∧ ∃ path, partition (.text device) number = .ok path) ∨
    ¬ IsNameable device ∧ partition (.text device) number = .error (.unsupportedNaming device) := by
  rw [← isSome_family?_iff]
  cases h : family? device with
  | none => exact .inr ⟨Bool.false_ne_true, by simp [partition, partition?, h]⟩
  | some f => exact .inl ⟨rfl, _, partition_eq_ok_iff.2 ⟨f, h, rfl⟩⟩

end DevicePath

namespace Spec

def index? : Spec → Option Value
  | partition _ _ _ _ _ index _ _ => some index
  | _ => none

variable {spec : Spec} {ctx : Context}

theorem isSome_index?_iff : spec.index?.isSome = true ↔ spec.kind = .partition := by
  cases spec <;> simp [index?, kind]

theorem base?_of_index? {index : Value} (h : spec.index? = some index) (ctx : Context) : ctx.device ∈ spec.base? ctx := by
  cases spec <;> first | rfl | cases h

theorem enter_of_index? {index : Value} (h : spec.index? = some index) : (spec.enter ctx).map (fun _ => ()) = (do
    let _ ← DevicePath.partition ctx.device index.toText
    Value.requireWritable [index]) := by
  cases spec <;> cases h
  rw [enter, inner, pathParts]
  cases DevicePath.partition ctx.device index.toText with
  | error e => rfl
  | ok path =>
    simp only [except_ok_bind]
    cases Value.requireWritable [index] <;> rfl

theorem exists_enter (h : spec.isTyped = true) (hctx : ctx.Writable) (hindex : spec.index? = none) :
    ∃ inner, spec.enter ctx = .ok inner := by
  obtain ⟨hdevice, hgroup, hpool⟩ := hctx
  have hparts : ∀ v ∈ spec.pathParts ctx, v.isWritable = true := by
    cases spec <;> simp_all [pathParts, isTyped, index?, Value.isWritable_of_isText]
  obtain ⟨inner, hinner⟩ : ∃ inner, spec.inner ctx = .ok inner := by
    cases spec <;> first | exact ⟨_, rfl⟩ | cases hindex
  exact ⟨inner, enter_eq_ok_iff.2 ⟨hinner, hparts⟩⟩

end Spec

namespace Visit

def naming (v : Visit) : Except Fault Unit :=
  if v.node.spec.places && !v.node.children.isEmpty then (v.node.spec.enter v.ctx).map (fun _ => ()) else .ok ()

/-- What can end a creation at a node: the number that its commands say, then the naming of its device. -/
def check (v : Visit) : Except Fault Unit := do
  Value.requireWritable v.node.spec.saidNumber?.toList
  v.naming

/-- Whether the number that the commands of a node say can be written. -/
def IsSpelled (v : Visit) : Prop := ∀ number ∈ v.node.spec.saidNumber?, number.isWritable = true

/-- Whether a node that is a partition and holds something lies on a device whose partitions have names. -/
def IsNamed (v : Visit) : Prop :=
  v.node.spec.kind = .partition → v.node.children ≠ [] → ∃ d, v.ctx.device = .text d ∧ DevicePath.IsNameable d

/-- Whether the number of a node that is a partition and holds something can be written; it ends the name of the
partition. -/
def IsNumbered (v : Visit) : Prop := v.node.children ≠ [] → ∀ number ∈ v.node.spec.index?, number.isWritable = true

structure IsCreatable (v : Visit) : Prop where
  spelled : v.IsSpelled
  named : v.IsNamed
  numbered : v.IsNumbered

theorem isCreatable_iff {v : Visit} : v.IsCreatable ↔ v.IsNamed ∧ v.IsSpelled ∧ v.IsNumbered :=
  ⟨fun h => ⟨h.named, h.spelled, h.numbered⟩, fun ⟨hnamed, hspelled, hnumbered⟩ => ⟨hspelled, hnamed, hnumbered⟩⟩

namespace Sound

variable {v : Visit}

theorem naming_of_index? {n : Node} {ctx : Context} {index : Value} (h : n.spec.index? = some index) (hne : n.children ≠ [])
    {d : String} (hd : ctx.device = .text d) : Visit.naming ⟨n, ctx⟩ = (do
      let _ ← DevicePath.partition (.text d) index.toText
      Value.requireWritable [index]) := by
  have hplaces : n.spec.places = true := by
    cases hspec : n.spec <;> first | rfl | (rw [hspec] at h; cases h)
  rw [Visit.naming, hplaces, List.isEmpty_eq_false_iff.2 hne, Bool.not_false, Bool.and_self, if_pos rfl,
    Spec.enter_of_index? h, hd]

/-- **What a walk ends with at a node**: nothing, the device whose partitions have no names, or a number without a text. -/
theorem naming_cases (h : v.Sound) : v.IsNamed ∧ v.IsNumbered ∧ v.naming = .ok () ∨
    (¬ v.IsNamed ∧ ∃ d, v.ctx.device = .text d ∧ v.naming = .error (.unsupportedNaming d)) ∨
    v.IsNamed ∧ ¬ v.IsNumbered ∧ v.naming = .error (.misuse .unwritable) := by
  obtain ⟨⟨key, spec, hooks, children⟩, ctx⟩ := v
  cases children with
  | nil => exact .inl ⟨fun _ hne => absurd rfl hne, fun hne => absurd rfl hne, by simp [Visit.naming]⟩
  | cons c cs =>
    cases hindex : spec.index? with
    | none =>
      obtain ⟨inner, hinner⟩ := Spec.exists_enter h.typed h.writable hindex
      refine .inl ⟨fun hk => ?_, fun _ number hnumber => ?_, ?_⟩
      · rw [← Spec.isSome_index?_iff, hindex] at hk
        cases hk
      · cases hindex.symm.trans hnumber
      · simp only [Visit.naming, hinner]
        split <;> rfl
    | some index =>
      obtain ⟨d, hd⟩ := Value.isText_iff.1 (h.base _ (Spec.base?_of_index? hindex ctx))
      rw [naming_of_index? hindex (List.cons_ne_nil c cs) hd]
      obtain ⟨hnameable, path, hpath⟩ | ⟨hnameless, hpath⟩ := DevicePath.partition_cases d index.toText
      · have hnamed : Visit.IsNamed ⟨⟨key, spec, hooks, c :: cs⟩, ctx⟩ := fun _ _ => ⟨d, hd, hnameable⟩
        rw [hpath, except_ok_bind]
        cases hw : index.isWritable with
        | true =>
          exact .inl ⟨hnamed, fun _ number hnumber => Option.some.inj (hindex.symm.trans hnumber) ▸ hw,
            Value.requireWritable_eq_ok_iff.2 (by simpa using hw)⟩
        | false =>
          refine .inr (.inr ⟨hnamed, fun hnumbered => ?_, Value.requireWritable_eq_error_iff.2 ⟨by simpa using hw, rfl⟩⟩)
          exact Bool.false_ne_true (hw.symm.trans (hnumbered (List.cons_ne_nil c cs) index hindex))
      · refine .inr (.inl ⟨fun hnamed => hnameless ?_, d, hd, by rw [hpath]; rfl⟩)
        obtain ⟨d', hd', hnameable⟩ := hnamed (Spec.isSome_index?_iff.1 (by rw [hindex]; rfl)) (List.cons_ne_nil c cs)
        exact Value.text.inj (hd.symm.trans hd') ▸ hnameable

/-- **What a creation ends with at a node.** -/
theorem check_cases (h : v.Sound) : v.IsCreatable ∧ v.check = .ok () ∨
    (v.IsSpelled ∧ ¬ v.IsNamed ∧ ∃ d, v.ctx.device = .text d ∧ v.check = .error (.unsupportedNaming d)) ∨
    (¬ v.IsSpelled ∨ v.IsNamed ∧ ¬ v.IsNumbered) ∧ v.check = .error (.misuse .unwritable) := by
  have hspelled : v.IsSpelled ↔ Value.requireWritable v.node.spec.saidNumber?.toList = .ok () := by
    rw [Value.requireWritable_eq_ok_iff]
    simp only [IsSpelled, Option.mem_def, Option.mem_toList]
  unfold check
  cases hw : Value.requireWritable v.node.spec.saidNumber?.toList with
  | error f =>
    obtain ⟨-, rfl⟩ := Value.requireWritable_eq_error_iff.1 hw
    exact .inr (.inr ⟨.inl (by simp [hspelled, hw]), rfl⟩)
  | ok =>
    have hs := hspelled.2 hw
    obtain ⟨hnamed, hnumbered, hok⟩ | hunnamed | ⟨hnamed, hnumbered, herror⟩ := h.naming_cases
    · exact .inl ⟨⟨hs, hnamed, hnumbered⟩, hok⟩
    · exact .inr (.inl ⟨hs, hunnamed⟩)
    · exact .inr (.inr ⟨.inr ⟨hnamed, hnumbered⟩, herror⟩)

theorem check_of_isCreatable (h : v.Sound) (hv : v.IsCreatable) : v.check = .ok () := by
  obtain ⟨-, hcheck⟩ | ⟨-, hnamed, -⟩ | ⟨hnumber, -⟩ := h.check_cases
  · exact hcheck
  · exact absurd hv.named hnamed
  · exact absurd hnumber (by simp [hv.spelled, hv.numbered])

theorem naming_of_isCreatable (h : v.Sound) (hv : v.IsCreatable) : v.naming = .ok () := by
  obtain ⟨_, -, hnaming⟩ := except_bind_eq_ok_iff.1 (h.check_of_isCreatable hv)
  exact hnaming

end Sound

end Visit

namespace Node

/-- What a walk makes of the nodes below a node: it first hands its context down. -/
theorem below_eq {α : Type} (walk : List Node → Context → Except Fault α) (n : Node) (ctx : Context) {nothing : α}
    (hnil : ∀ inner, walk [] inner = .ok nothing) :
    (if n.spec.places && !n.children.isEmpty then n.spec.enter ctx >>= walk n.children else .ok nothing) =
      (Visit.naming ⟨n, ctx⟩ >>= fun _ => match n.spec.handed? ctx with
        | some inner => walk n.children inner
        | none => .ok nothing) := by
  unfold Visit.naming
  dsimp only
  cases hc : n.children with
  | nil =>
    simp only [List.isEmpty_nil, Bool.not_true, Bool.and_false, Bool.false_eq_true, if_false, hnil]
    split <;> rfl
  | cons c cs =>
    cases hp : n.spec.places with
    | false => simp [Spec.handed?, hp, bind, Except.bind]
    | true =>
      simp only [List.isEmpty_cons, Bool.not_false, Bool.and_self, if_true, Spec.handed?, hp]
      cases henter : n.spec.enter ctx with
      | error e => rfl
      | ok inner =>
        rw [(Spec.enter_eq_ok_iff.1 henter).1]
        rfl

theorem outcome_createBelow (n : Node) (ctx : Context) :
    (createBelow n ctx).outcome = (Visit.naming ⟨n, ctx⟩ >>= fun _ => match n.spec.handed? ctx with
      | some inner => (createAll n.children inner).outcome
      | none => .ok ()) := by
  rw [← below_eq (fun ns inner => (createAll ns inner).outcome) n ctx (fun _ => rfl), createBelow]
  split
  · exact Traced.outcome_bind _ _
  · rfl

mutual

/-- **A creation whose visits are sound** ends at the first node where something ends it. -/
theorem outcome_create : ∀ (n : Node) (ctx : Context), (∀ v ∈ n.visits ctx, v.Sound) →
    (n.create ctx).outcome = forM (n.visits ctx) Visit.check
  | ⟨key, spec, hooks, children⟩, ctx, h => by
    rw [visits_eq, List.forall_mem_cons] at h
    have hlabel : Value.requireWritable [spec.label] = .ok () :=
      Value.requireWritable_eq_ok_iff.2 (by simpa using Spec.isWritable_label h.1.typed)
    have hcreate : (create ⟨key, spec, hooks, children⟩ ctx).outcome =
        Value.requireWritable spec.saidNumber?.toList >>= fun _ =>
        (createBelow ⟨key, spec, hooks, children⟩ ctx).outcome := by
      rw [create_eq]
      simp only [Traced.outcome_bind, Creation.step, Traced.outcome_tell, Creation.outcome_log, h.1.own,
        Traced.outcome_liftM, hlabel, except_ok_bind]
      cases Value.requireWritable spec.saidNumber?.toList with
      | error e => rfl
      | ok => cases (createBelow ⟨key, spec, hooks, children⟩ ctx).outcome <;> rfl
    rw [hcreate, outcome_createBelow, visits_eq, List.forM_cons, Visit.check, bind_assoc]
    refine bind_congr fun _ => bind_congr fun _ => ?_
    dsimp only at h ⊢
    cases hhanded : spec.handed? ctx with
    | none => rfl
    | some inner =>
      simp only [hhanded] at h
      exact outcome_createAll children inner h.2

theorem outcome_createAll : ∀ (ns : List Node) (ctx : Context), (∀ v ∈ visitsAll ns ctx, v.Sound) →
    (createAll ns ctx).outcome = forM (visitsAll ns ctx) Visit.check
  | [], _, _ => rfl
  | n :: ns, ctx, h => by
    rw [visitsAll, List.forall_mem_append] at h
    rw [createAll, visitsAll, List.forM_append, Traced.outcome_bind, outcome_create n ctx h.1, outcome_createAll ns ctx h.2]

end

theorem outcome_mountBelow (n : Node) (ctx : Context) :
    (mountBelow n ctx).outcome = (Visit.naming ⟨n, ctx⟩ >>= fun _ => match n.spec.handed? ctx with
      | some inner => (mountAll n.children inner .empty).outcome
      | none => .ok .empty) := by
  rw [← below_eq (fun ns inner => (mountAll ns inner .empty).outcome) n ctx (fun _ => rfl), mountBelow]
  split
  · exact Traced.outcome_bind _ _
  · rfl

theorem factsBelow_eq (n : Node) (ctx : Context) :
    factsBelow n ctx = (Visit.naming ⟨n, ctx⟩ >>= fun _ => match n.spec.handed? ctx with
      | some inner => factsAll n.children inner
      | none => .ok []) := by
  rw [← below_eq factsAll n ctx (fun _ => rfl)]
  rfl

mutual

theorem exists_mount : ∀ (n : Node) (ctx : Context), (∀ v ∈ n.visits ctx, v.Sound ∧ v.naming = .ok ()) →
    ∃ f, (n.mount ctx).outcome = .ok f
  | ⟨key, spec, hooks, children⟩, ctx, h => by
    rw [visits_eq, List.forall_mem_cons] at h
    obtain ⟨⟨hsound, hnaming⟩, hbelow⟩ := h
    obtain ⟨own, hown⟩ := Spec.exists_mounting hsound.typed hsound.base
    have hwritten := Value.requireWritable_eq_ok_iff.2 (Spec.isWritable_mountWritten hsound.typed hsound.writable own.isSome)
    obtain ⟨below, hb⟩ : ∃ below, (mountBelow ⟨key, spec, hooks, children⟩ ctx).outcome = .ok below := by
      rw [outcome_mountBelow, hnaming]
      dsimp only at hbelow ⊢
      cases hhanded : spec.handed? ctx with
      | none => exact ⟨_, rfl⟩
      | some inner =>
        simp only [hhanded] at hbelow
        exact exists_mountAll children inner .empty hbelow
    rw [mount_eq]
    exact ⟨_, Traced.outcome_bind_eq_ok_iff.2 ⟨below, hb, Traced.outcome_bind_eq_ok_iff.2 ⟨own, hown,
      Traced.outcome_bind_eq_ok_iff.2 ⟨(), hwritten, rfl⟩⟩⟩⟩

theorem exists_mountAll : ∀ (ns : List Node) (ctx : Context) (acc : MountFragment),
    (∀ v ∈ visitsAll ns ctx, v.Sound ∧ v.naming = .ok ()) → ∃ f, (mountAll ns ctx acc).outcome = .ok f
  | [], _, acc, _ => ⟨acc, rfl⟩
  | n :: ns, ctx, acc, h => by
    rw [visitsAll, List.forall_mem_append] at h
    obtain ⟨g, hg⟩ := exists_mount n ctx h.1
    obtain ⟨f, hf⟩ := exists_mountAll ns ctx _ h.2
    rw [mountAll]
    exact ⟨f, Traced.outcome_bind_eq_ok_iff.2 ⟨g, hg, Traced.outcome_bind_eq_ok_iff.2 ⟨_, Fragment.outcome_add acc g, hf⟩⟩⟩

end

mutual

theorem exists_facts : ∀ (n : Node) (ctx : Context), (∀ v ∈ n.visits ctx, v.Sound ∧ v.naming = .ok ()) →
    ∃ fs, n.facts ctx = .ok fs
  | ⟨key, spec, hooks, children⟩, ctx, h => by
    rw [visits_eq, List.forall_mem_cons] at h
    obtain ⟨⟨hsound, hnaming⟩, hbelow⟩ := h
    obtain ⟨own, hown⟩ := Spec.exists_factsBefore hsound.typed
    have hwritten := Value.requireWritable_eq_ok_iff.2
      (Spec.isWritable_factsWritten hsound.typed hsound.writable !own.isEmpty)
    have hafter := Value.requireWritable_eq_ok_iff.2 (Spec.isWritable_factsAfterWritten hsound.typed)
    obtain ⟨below, hb⟩ : ∃ below, factsBelow ⟨key, spec, hooks, children⟩ ctx = .ok below := by
      rw [factsBelow_eq, hnaming]
      dsimp only at hbelow ⊢
      cases hhanded : spec.handed? ctx with
      | none => exact ⟨_, rfl⟩
      | some inner =>
        simp only [hhanded] at hbelow
        exact exists_factsAll children inner hbelow
    rw [facts_eq]
    exact ⟨_, except_bind_eq_ok_iff.2 ⟨own, hown, except_bind_eq_ok_iff.2 ⟨(), hwritten, except_bind_eq_ok_iff.2
      ⟨below, hb, except_bind_eq_ok_iff.2 ⟨(), hafter, rfl⟩⟩⟩⟩⟩

theorem exists_factsAll : ∀ (ns : List Node) (ctx : Context), (∀ v ∈ visitsAll ns ctx, v.Sound ∧ v.naming = .ok ()) →
    ∃ fs, factsAll ns ctx = .ok fs
  | [], _, _ => ⟨[], rfl⟩
  | n :: ns, ctx, h => by
    rw [visitsAll, List.forall_mem_append] at h
    obtain ⟨first, hfirst⟩ := exists_facts n ctx h.1
    obtain ⟨rest, hrest⟩ := exists_factsAll ns ctx h.2
    rw [factsAll]
    exact ⟨_, except_bind_eq_ok_iff.2 ⟨first, hfirst, except_bind_eq_ok_iff.2 ⟨rest, hrest, rfl⟩⟩⟩

end

theorem checkArrayPath_of_isTyped : ∀ n : Node, n.spec.isTyped = true → n.checkArrayPath = .ok ()
  | ⟨_, spec, _, []⟩, _ => by cases spec <;> rfl
  | ⟨_, spec, _, _ :: _⟩, h => by
    cases spec
    case array =>
      simp only [Spec.isTyped, Bool.and_eq_true] at h
      exact Value.requireWritable_eq_ok_iff.2 (by simpa using Value.isWritable_of_isText h.1.1)
    all_goals rfl

mutual

theorem exists_tools : ∀ n : Node, (∀ m ∈ n.subnodes, m.spec.isTyped = true) → ∃ ts, n.tools = .ok ts
  | ⟨key, spec, hooks, children⟩, h => by
    rw [subnodes_eq, List.forall_mem_cons] at h
    obtain ⟨own, hown⟩ := Spec.exists_tools h.1
    obtain ⟨below, hb⟩ := exists_toolsAll children h.2
    rw [tools]
    exact ⟨_, except_bind_eq_ok_iff.2 ⟨own, hown, except_bind_eq_ok_iff.2 ⟨(), checkArrayPath_of_isTyped _ h.1,
      except_bind_eq_ok_iff.2 ⟨below, hb, rfl⟩⟩⟩⟩

theorem exists_toolsAll : ∀ ns : List Node, (∀ m ∈ subnodesAll ns, m.spec.isTyped = true) → ∃ ts, toolsAll ns = .ok ts
  | [], _ => ⟨[], rfl⟩
  | n :: ns, h => by
    rw [subnodesAll, List.forall_mem_append] at h
    obtain ⟨first, hfirst⟩ := exists_tools n h.1
    obtain ⟨rest, hrest⟩ := exists_toolsAll ns h.2
    rw [toolsAll]
    exact ⟨_, except_bind_eq_ok_iff.2 ⟨first, hfirst, except_bind_eq_ok_iff.2 ⟨rest, hrest, rfl⟩⟩⟩

end

theorem exists_metadata {n : Node} (h : ∀ m ∈ n.subnodes, m.spec.isTyped = true) (parent : Option DeviceRef) :
    ∃ m, n.metadata parent = .ok m := by
  have hfact (m : Group × Value) (hm : m ∈ n.memberships) :
      ∃ fact, Metadata.dependency m.1.name m.2 ((parent.map DeviceRef.toValue).getD .null) = .ok fact := by
    rw [memberships_eq_filterMap] at hm
    obtain ⟨x, hx, hm⟩ := List.mem_filterMap.1 hm
    exact ⟨_, if_pos (Value.isKey_of_isText (Spec.isText_of_membership? (h x hx) hm))⟩
  obtain ⟨parts, hparts⟩ := exists_except_mapM hfact
  have hpath := checkArrayPath_of_isTyped n (h n (mem_subnodes_iff.2 (.inl rfl)))
  exact ⟨_, except_bind_eq_ok_iff.2 ⟨(), hpath, except_bind_eq_ok_iff.2 ⟨parts, hparts, rfl⟩⟩⟩

end Node

namespace Visit

theorem check_withMembers (ms : List Recording) (v : Visit) : (v.withMembers ms).check = v.check := by
  unfold check naming withMembers
  dsimp only
  rw [Spec.enter_with_members]
  cases v.node.spec.enter v.ctx <;> rfl

end Visit

end Provision
