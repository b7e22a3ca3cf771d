import Mathlib.Data.List.Nodup
import Provision.Proofs.Creation.Devices
/-!
# What the mount walk does

The mount walk meets the same nodes as the creation walk, but it enters what a node mounts only after what the nodes below it
mount (`Node.visitsUp`).  A table of mounts keeps at every path the last that was entered there (`ByPath.HoldsLast`), however
fragments are put together.  So the fragment of a layout has the activations of all nodes that are met, each before those
below it, and at every path the last mount of them (`Layout.mountFragment_ok`).
-/
namespace Provision

theorem filterMap_singleton {α β : Type} (f : α → Option β) (x : α) : [x].filterMap f = (f x).toList := by
  rw [List.filterMap_eq_flatMap_toList, List.flatMap_singleton]

namespace ByPath

variable {μ : Type}

def enter (ms : ByPath μ) : Option (String × μ) → ByPath μ
  | some (path, m) => ms.put path m
  | none => ms

def lastAt? (es : List (String × μ)) (path : String) : Option μ := get? es.reverse path

/-- **A table of what was entered last**: every path once, with the last of the things entered there. -/
structure HoldsLast (ms : ByPath μ) (es : List (String × μ)) : Prop where
  nodup : (ms.map Prod.fst).Nodup
  get? : ∀ path, get? ms path = lastAt? es path

theorem get?_append (ms ns : ByPath μ) (path : String) : get? (ms ++ ns) path = (get? ms path).or (get? ns path) := by
  simp only [get?, List.find?_append]
  cases ms.find? (fun m => m.1 == path) <;> rfl

theorem lastAt?_append (es fs : List (String × μ)) (path : String) :
    lastAt? (es ++ fs) path = (lastAt? fs path).or (lastAt? es path) := by
  rw [lastAt?, List.reverse_append, get?_append, lastAt?, lastAt?]

theorem get?_eq_none_iff {ms : ByPath μ} {path : String} : get? ms path = none ↔ path ∉ ms.map Prod.fst := by
  rw [get?, Option.map_eq_none_iff, List.find?_eq_none, List.mem_map]
  constructor
  · rintro h ⟨m, hm, rfl⟩
    exact h m hm (beq_self_eq_true m.1)
  · exact fun h m hm hpath => h ⟨m, hm, by simpa using hpath⟩

theorem lastAt?_eq_none_iff {es : List (String × μ)} {path : String} :
    lastAt? es path = none ↔ path ∉ es.map Prod.fst := by
  rw [lastAt?, get?_eq_none_iff, List.map_reverse, List.mem_reverse]

theorem mem_of_get? {ms : ByPath μ} {path : String} {m : μ} (h : get? ms path = some m) : (path, m) ∈ ms := by
  obtain ⟨e, he, rfl⟩ := Option.map_eq_some_iff.1 h
  have hpath : e.1 = path := by simpa using List.find?_some he
  exact hpath ▸ List.mem_of_find?_eq_some he

theorem get?_of_mem {ms : ByPath μ} (h : (ms.map Prod.fst).Nodup) {path : String} {m : μ} (hm : (path, m) ∈ ms) :
    get? ms path = some m := by
  cases hget : get? ms path with
  | none => exact absurd (List.mem_map_of_mem hm) (get?_eq_none_iff.1 hget)
  | some n => rw [(Prod.mk.inj (List.inj_on_of_nodup_map h (mem_of_get? hget) hm rfl)).2]

theorem mem_of_lastAt? {es : List (String × μ)} {path : String} {m : μ} (h : lastAt? es path = some m) : (path, m) ∈ es :=
  List.mem_reverse.1 (mem_of_get? h)

theorem lastAt?_of_nodup {ms : ByPath μ} (h : (ms.map Prod.fst).Nodup) (path : String) : lastAt? ms path = get? ms path := by
  induction ms with
  | nil => rfl
  | cons e es ih =>
    rw [List.map_cons, List.nodup_cons] at h
    rw [← List.singleton_append, lastAt?_append, get?_append, ih h.2]
    by_cases he : e.1 = path
    · rw [get?_eq_none_iff.2 (he ▸ h.1), Option.none_or, Option.or_none]
      rfl
    · have hnone : get? [e] path = none := get?_eq_none_iff.2 (by simpa using fun hp => he hp.symm)
      rw [hnone, lastAt?, List.reverse_singleton, hnone, Option.none_or, Option.or_none]

theorem keys_put (ms : ByPath μ) (path : String) (m : μ) :
    (put ms path m).map Prod.fst = if path ∈ ms.map Prod.fst then ms.map Prod.fst else ms.map Prod.fst ++ [path] := by
  induction ms with
  | nil => rfl
  | cons e es ih =>
    by_cases he : e.1 = path
    · simp [put, he]
    · have he' : path ≠ e.1 := fun h => he h.symm
      simp only [put, he, if_false, List.map_cons, ih, List.mem_cons, he', false_or]
      split <;> rfl

namespace HoldsLast

theorem empty : HoldsLast ([] : ByPath μ) [] := ⟨List.nodup_nil, fun _ => rfl⟩

theorem put {ms : ByPath μ} {es : List (String × μ)} (h : ms.HoldsLast es) (path : String) (m : μ) :
    (ms.put path m).HoldsLast (es ++ [(path, m)]) := by
  refine ⟨?_, fun other => ?_⟩
  · rw [keys_put]
    split
    · exact h.nodup
    · rename_i hpath
      exact List.nodup_append.2 ⟨h.nodup, List.nodup_singleton _, fun a ha b hb => by
        rintro rfl
        exact hpath (List.mem_singleton.1 hb ▸ ha)⟩
  · rw [lastAt?_append]
    by_cases ho : other = path
    · subst ho
      rw [get?_put_self]
      simp [lastAt?, ByPath.get?]
    · have hnone : lastAt? [(path, m)] other = none := lastAt?_eq_none_iff.2 (by simpa using ho)
      rw [get?_put_of_ne _ _ ho, hnone, Option.none_or, h.get?]

theorem enter {ms : ByPath μ} {es : List (String × μ)} (h : ms.HoldsLast es) (e : Option (String × μ)) :
    (ms.enter e).HoldsLast (es ++ e.toList) := by
  cases e with
  | none => simpa [ByPath.enter] using h
  | some e => exact h.put e.1 e.2

theorem foldl_put : ∀ {fs : List (String × μ)} {ms : ByPath μ} {es : List (String × μ)}, ms.HoldsLast es →
    (fs.foldl (fun acc e => acc.put e.1 e.2) ms).HoldsLast (es ++ fs)
  | [], _, _, h => by simpa using h
  | e :: fs, _, es, h => by
    rw [List.foldl_cons, ← List.singleton_append, ← List.append_assoc]
    exact foldl_put (h.put e.1 e.2)

/-- **Tables put together** hold what was entered last in both, one after the other. -/
theorem merge {ms ns : ByPath μ} {es fs : List (String × μ)} (h : ms.HoldsLast es) (h' : ns.HoldsLast fs) :
    (ns.foldl (fun acc e => acc.put e.1 e.2) ms).HoldsLast (es ++ fs) := by
  have hput : (ns.foldl (fun acc e => acc.put e.1 e.2) ms).HoldsLast (es ++ ns) := h.foldl_put
  refine ⟨hput.nodup, fun path => ?_⟩
  rw [hput.get?, lastAt?_append, lastAt?_append, lastAt?_of_nodup h'.nodup, h'.get?]

theorem mem_keys_iff {ms : ByPath μ} {es : List (String × μ)} (h : ms.HoldsLast es) {path : String} :
    path ∈ ms.map Prod.fst ↔ path ∈ es.map Prod.fst := by
  rw [← not_iff_not, ← get?_eq_none_iff, ← lastAt?_eq_none_iff, h.get?]

theorem mem_of_mem {ms : ByPath μ} {es : List (String × μ)} (h : ms.HoldsLast es) {e : String × μ} (he : e ∈ ms) : e ∈ es :=
  mem_of_lastAt? ((h.get? e.1).symm.trans (get?_of_mem h.nodup he))

theorem exists_mem {ms : ByPath μ} {es : List (String × μ)} (h : ms.HoldsLast es) {e : String × μ} (he : e ∈ es) :
    ∃ m, (e.1, m) ∈ ms := by
  cases hlast : lastAt? es e.1 with
  | none => exact absurd (List.mem_map_of_mem he) (lastAt?_eq_none_iff.1 hlast)
  | some m => exact ⟨m, mem_of_get? ((h.get? e.1).trans hlast)⟩

end HoldsLast

end ByPath

namespace Fragment

variable {σ μ : Type}

theorem outcome_addMounts : ∀ (ms acc : ByPath μ),
    (addMounts acc ms).outcome = .ok (ms.foldl (fun acc e => acc.put e.1 e.2) acc)
  | [], _ => rfl
  | (path, m) :: rest, acc => by
    rw [addMounts, List.foldl_cons, ← outcome_addMounts rest]
    split <;> rfl

theorem outcome_add (acc f : Fragment σ μ) : (acc.add f).outcome =
    .ok ⟨acc.activation ++ f.activation, f.mounts.foldl (fun acc e => acc.put e.1 e.2) acc.mounts⟩ := by
  rw [add, Traced.bind_ok (outcome_addMounts f.mounts acc.mounts)]
  rfl

end Fragment

namespace Step

@[simp] theorem commands_append {α : Type} (ss ts : List (Step α)) : commands (ss ++ ts) = commands ss ++ commands ts := by
  simp [commands]

@[simp] theorem commands_hook {α : Type} (snippet : String) : commands [(.hook snippet : Step α)] = [] := rfl

@[simp] theorem commands_map_run {α : Type} (as : List α) : commands (as.map Step.run) = as := by
  simp [commands]

end Step

namespace Visit

def activations (v : Visit) : List Activation := v.node.spec.activation v.ctx

/-- What the mount walk enters for a node itself: a path and what is mounted there. -/
def entered? (v : Visit) : Option (String × Mounting) := ((v.node.spec.mounting v.ctx).toOption).join

theorem entered?_eq_some_iff {v : Visit} {e : String × Mounting} :
    v.entered? = some e ↔ v.node.spec.mounting v.ctx = .ok (some e) := by
  rw [entered?, Option.join_eq_some_iff]
  cases v.node.spec.mounting v.ctx <;> simp [Except.toOption]

theorem entered?_of_mounting {v : Visit} {e : Option (String × Mounting)} (h : v.node.spec.mounting v.ctx = .ok e) :
    v.entered? = e := by
  simp [entered?, h, Except.toOption]

end Visit

namespace Node

mutual

/-- The nodes that a walk meets, each after those below it. -/
def visitsUp : Node → Context → List Visit
  | ⟨key, spec, hooks, children⟩, ctx =>
    (match spec.handed? ctx with
      | some inner => visitsUpAll children inner
      | none => []) ++ [⟨⟨key, spec, hooks, children⟩, ctx⟩]

def visitsUpAll : List Node → Context → List Visit
  | [], _ => []
  | n :: ns, ctx => visitsUp n ctx ++ visitsUpAll ns ctx

end

theorem visitsUp_eq (n : Node) (ctx : Context) :
    n.visitsUp ctx = (match n.spec.handed? ctx with
      | some inner => visitsUpAll n.children inner
      | none => []) ++ [⟨n, ctx⟩] := by
  cases n
  rw [visitsUp]

mutual

theorem visitsUp_perm : ∀ (n : Node) (ctx : Context), (n.visitsUp ctx).Perm (n.visits ctx)
  | ⟨key, spec, hooks, children⟩, ctx => by
    rw [visitsUp_eq, visits_eq]
    refine (List.perm_append_singleton _ _).trans (List.Perm.cons _ ?_)
    cases spec.handed? ctx with
    | some inner => exact visitsUpAll_perm children inner
    | none => exact .refl _

theorem visitsUpAll_perm : ∀ (ns : List Node) (ctx : Context), (visitsUpAll ns ctx).Perm (visitsAll ns ctx)
  | [], _ => .refl _
  | n :: ns, ctx => (visitsUp_perm n ctx).append (visitsUpAll_perm ns ctx)

end

def mountBelow (n : Node) (ctx : Context) : Logged MountFragment :=
  if n.spec.places && !n.children.isEmpty then do
    let inner ← n.spec.enter ctx
    mountAll n.children inner .empty
  else pure .empty

theorem mount_eq (n : Node) (ctx : Context) :
    n.mount ctx = (do
      let below ← mountBelow n ctx
      let own ← n.spec.mounting ctx
      Value.requireWritable (n.spec.mountWritten ctx own.isSome)
      return ⟨[.hook n.hooks.preMount] ++ (n.spec.activation ctx).map .run ++ below.activation ++ [.hook n.hooks.postMount],
        below.mounts.enter own⟩) := by
  cases n
  rw [mount]
  simp only [mountBelow]
  split <;> simp only [bind_assoc, pure_bind]
  · refine bind_congr fun inner => bind_congr fun below => bind_congr fun own => bind_congr fun _ => ?_
    cases own <;> rfl
  · refine bind_congr fun own => bind_congr fun _ => ?_
    cases own <;> rfl

theorem mountBelow_ok {n : Node} {ctx : Context} {below : MountFragment} (h : (mountBelow n ctx).outcome = .ok below) :
    match n.spec.handed? ctx with
    | some inner => (mountAll n.children inner .empty).outcome = .ok below
    | none => below = .empty := by
  unfold mountBelow at h
  cases hc : n.children with
  | nil =>
    obtain rfl : .empty = below := by simpa [hc] using h
    split <;> rfl
  | cons c cs =>
    cases hp : n.spec.places with
    | false =>
      obtain rfl : .empty = below := by simpa [hp] using h
      simp [Spec.handed?, hp]
    | true =>
      simp only [hp, hc, List.isEmpty_cons, Bool.not_false, Bool.and_true, if_true, Traced.outcome_bind_eq_ok_iff] at h
      obtain ⟨inner, hinner, h⟩ := h
      have hinner := (Spec.enter_eq_ok_iff.1 hinner).1
      simpa [Spec.handed?, hp, hinner, Except.toOption] using h

mutual

/-- **The mount fragment of a tree**: the activations of the nodes that are met, and at every path the last of what they
mount. -/
theorem mount_ok : ∀ (n : Node) (ctx : Context) (f : MountFragment), (n.mount ctx).outcome = .ok f →
    Step.commands f.activation = (n.visits ctx).flatMap Visit.activations ∧
      f.mounts.HoldsLast ((n.visitsUp ctx).filterMap Visit.entered?) ∧
      ∀ v ∈ n.visits ctx, v.node.spec.mounting v.ctx = .ok v.entered?
  | ⟨key, spec, hooks, children⟩, ctx, f, h => by
    rw [mount_eq] at h
    obtain ⟨below, hbelow, h⟩ := Traced.outcome_bind_eq_ok_iff.1 h
    obtain ⟨own, hown, h⟩ := Traced.outcome_bind_eq_ok_iff.1 h
    obtain ⟨_, -, h⟩ := Traced.outcome_bind_eq_ok_iff.1 h
    rw [Traced.outcome_liftM] at hown
    obtain rfl := Except.ok.inj h
    have hentered : (Visit.mk ⟨key, spec, hooks, children⟩ ctx).entered? = own := Visit.entered?_of_mounting hown
    -- what comes from below is the same whether the node holds nothing, places nothing, or hands a context down
    obtain ⟨hactivation, hmounts, hall⟩ :
        Step.commands below.activation = (match spec.handed? ctx with
          | some inner => visitsAll children inner
          | none => []).flatMap Visit.activations ∧
        below.mounts.HoldsLast ((match spec.handed? ctx with
          | some inner => visitsUpAll children inner
          | none => []).filterMap Visit.entered?) ∧
        ∀ v ∈ (match spec.handed? ctx with
          | some inner => visitsAll children inner
          | none => []), v.node.spec.mounting v.ctx = .ok v.entered? := by
      have hb := mountBelow_ok hbelow
      cases hhanded : spec.handed? ctx with
      | some inner =>
        simp only [hhanded] at hb
        simpa [Fragment.empty, Step.commands] using mountAll_ok children inner .empty below [] .empty hb
      | none =>
        simp only [hhanded] at hb
        rw [hb]
        exact ⟨rfl, .empty, fun v hv => by cases hv⟩
    rw [visits_eq, visitsUp_eq]
    refine ⟨?_, ?_, ?_⟩
    · simp only [Step.commands_append, Step.commands_hook, Step.commands_map_run, hactivation, List.nil_append,
        List.append_nil, List.flatMap_cons]
      rfl
    · rw [List.filterMap_append, filterMap_singleton, hentered]
      exact hmounts.enter own
    · intro v hv
      rcases List.mem_cons.1 hv with rfl | hv
      · rw [hentered]
        exact hown
      · exact hall v hv

theorem mountAll_ok : ∀ (ns : List Node) (ctx : Context) (acc f : MountFragment) (es : List (String × Mounting)),
    acc.mounts.HoldsLast es → (mountAll ns ctx acc).outcome = .ok f →
    Step.commands f.activation = Step.commands acc.activation ++ (visitsAll ns ctx).flatMap Visit.activations ∧
      f.mounts.HoldsLast (es ++ (visitsUpAll ns ctx).filterMap Visit.entered?) ∧
      ∀ v ∈ visitsAll ns ctx, v.node.spec.mounting v.ctx = .ok v.entered?
  | [], ctx, acc, f, es, hacc, h => by
    obtain rfl : acc = f := Except.ok.inj h
    simpa [visitsAll, visitsUpAll] using hacc
  | n :: ns, ctx, acc, f, es, hacc, h => by
    rw [mountAll] at h
    obtain ⟨g, hg, h⟩ := Traced.outcome_bind_eq_ok_iff.1 h
    obtain ⟨acc', hadd, h⟩ := Traced.outcome_bind_eq_ok_iff.1 h
    rw [Fragment.outcome_add] at hadd
    obtain rfl := Except.ok.inj hadd
    obtain ⟨hactivation, hmounts, hall⟩ := mount_ok n ctx g hg
    obtain ⟨hactivation', hmounts', hall'⟩ := mountAll_ok ns ctx _ f _ (hacc.merge hmounts) h
    refine ⟨?_, ?_, ?_⟩
    · rw [hactivation', Step.commands_append, hactivation, visitsAll, List.flatMap_append, List.append_assoc]
    · rw [visitsUpAll, List.filterMap_append, ← List.append_assoc]
      exact hmounts'
    · intro v hv
      exact (List.mem_append.1 hv).elim (hall v) (hall' v)

end

end Node

namespace Device

def mountings (d : Device) (root : String) : List (String × Mounting) :=
  (d.node.visitsUp (d.context root [])).filterMap Visit.entered?

theorem mem_mountings_iff {d : Device} {root : String} {e : String × Mounting} :
    e ∈ d.mountings root ↔ ∃ v ∈ d.visits root [], v.entered? = some e := by
  rw [mountings, List.mem_filterMap]
  exact exists_congr (fun v => and_congr_left' (Node.visitsUp_perm _ _).mem_iff)

end Device

namespace Layout

theorem mountDevices_ok {root : String} : ∀ {ds : List Device} {acc f : MountFragment} {es : List (String × Mounting)},
    acc.mounts.HoldsLast es → (mountDevices root ds acc).outcome = .ok f →
    Step.commands f.activation =
        Step.commands acc.activation ++ ds.flatMap (fun d => (d.visits root []).flatMap Visit.activations) ∧
      f.mounts.HoldsLast (es ++ ds.flatMap (·.mountings root)) ∧
      ∀ d ∈ ds, ∀ v ∈ d.visits root [], v.node.spec.mounting v.ctx = .ok v.entered?
  | [], acc, f, es, hacc, h => by
    obtain rfl : acc = f := Except.ok.inj h
    simpa using hacc
  | d :: ds, acc, f, es, hacc, h => by
    rw [mountDevices] at h
    obtain ⟨g, hg, h⟩ := Traced.outcome_bind_eq_ok_iff.1 h
    obtain ⟨acc', hadd, h⟩ := Traced.outcome_bind_eq_ok_iff.1 h
    rw [Fragment.outcome_add] at hadd
    obtain rfl := Except.ok.inj hadd
    obtain ⟨hactivation, hmounts, hall⟩ := Node.mount_ok d.node _ g hg
    obtain ⟨hactivation', hmounts', hall'⟩ := mountDevices_ok (hacc.merge hmounts) h
    refine ⟨?_, ?_, List.forall_mem_cons.2 ⟨hall, hall'⟩⟩
    · rw [hactivation', Step.commands_append, hactivation, List.flatMap_cons, List.append_assoc]
      rfl
    · rw [List.flatMap_cons, ← List.append_assoc]
      exact hmounts'

/-- **The mount fragment of a layout**: the activations of all nodes that are met, and at every path the last of what they
mount, in the order of the devices. -/
theorem mountFragment_ok {l : Layout} {root : String} {order : List DeviceRef} {f : MountFragment}
    (h : (l.mountFragment root order).outcome = .ok f) :
    Step.commands f.activation =
        (l.inOrder order).flatMap (fun d => (d.visits root []).flatMap Visit.activations) ∧
      f.mounts.HoldsLast ((l.inOrder order).flatMap (·.mountings root)) ∧
      ∀ d ∈ l.inOrder order, ∀ v ∈ d.visits root [], v.node.spec.mounting v.ctx = .ok v.entered? := by
  obtain ⟨hactivation, hmounts, hall⟩ := mountDevices_ok (ByPath.HoldsLast.empty : Fragment.empty.mounts.HoldsLast []) h
  exact ⟨hactivation, hmounts, hall⟩

end Layout

/-- **What a layout that compiles mounts and configures**: the mount script is that of the fragment of its devices in their
order, the facts are those of the layout. -/
theorem compile_mounts {tree : Value} {root : String} {c : Compiled} (h : (compile tree root).outcome = .ok c) {l : Layout}
    (hl : (Layout.read tree).outcome = .ok l) :
    ∃ f, (l.mountFragment root c.order).outcome = .ok f ∧ c.mountScript = Layout.mountText f ∧ l.facts = .ok c.facts := by
  unfold compile at h
  simp only [Traced.outcome_bind_eq_ok_iff, Traced.outcome_liftM, Traced.outcome_pure, Except.ok.injEq] at h
  obtain ⟨l', hl', -, -, order, -, _, _, -, -, script, hscript, facts, hfacts, -, -, _, _, rfl⟩ := h
  cases hl.symm.trans hl'
  unfold Layout.mountScript at hscript
  simp only [Traced.outcome_bind_eq_ok_iff, Traced.outcome_pure, Except.ok.injEq] at hscript
  obtain ⟨f, hf, rfl⟩ := hscript
  exact ⟨f, hf, rfl, hfacts⟩

end Provision
