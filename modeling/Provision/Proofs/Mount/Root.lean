import Provision.Proofs.Mount.Facts
import Provision.Proofs.Plan
/-!
# What the root of the target system changes

Every context carries the root of the target system, but only a filesystem that is mounted is told of it.  So the plan of a
layout below another root is the same but for the roots of its mounts (`Layout.plan_with_root`), and the mount script has the
same text but for the directories on which filesystems are mounted (`root_only_rebases`).
-/
namespace Provision

open Value (entry node)

/-! ## Rebasing mounts -/

def rootBase (root : String) : String := String.ofList (root.toList.reverse.dropWhile (· == '/')).reverse

namespace Mounting

def rebase (root : String) : Mounting → Mounting
  | filesystem source _ mountpoint options fsType => filesystem source root mountpoint options fsType
  | swap device => swap device

/-- The lines of a mounting, where the target of a filesystem is `base` and then its mountpoint. -/
def scriptBelow (base : String) : Mounting → String
  | filesystem source _ mountpoint options fsType =>
    let target := base ++ mountpoint
    "if ! " ++ ("findmnt " ++ Shell.quote source.toText ++ " " ++ Shell.quote target ++ " >/dev/null 2>&1") ++
    "; then\n  " ++
      Shell.commandLine ("mount" :: source.words ++ [target] ++ (if fsType.isGiven then ["-t", fsType.toText] else []) ++
        Shell.optionFlags "-o" options ++ ["-o", "X-mount.mkdir"]) ++ "\nfi\n"
  | swap device => (swap device).script

theorem script_rebase (root : String) (m : Mounting) : (m.rebase root).script = m.scriptBelow (rootBase root) := by
  cases m <;> rfl

end Mounting

namespace ByPath

variable {μ ν : Type}

def mapValues (k : μ → ν) (ms : ByPath μ) : ByPath ν := ms.map (Prod.map id k)

theorem contains_mapValues (k : μ → ν) (ms : ByPath μ) (path : String) :
    (ms.mapValues k).contains path = ms.contains path := by
  rw [contains, contains, mapValues, List.any_map]
  rfl

theorem put_mapValues (k : μ → ν) (ms : ByPath μ) (path : String) (m : μ) :
    (ms.mapValues k).put path (k m) = (ms.put path m).mapValues k := by
  induction ms with
  | nil => rfl
  | cons e es ih =>
    rw [mapValues] at ih
    by_cases he : e.1 = path
    · simp [mapValues, put, he]
    · simp [mapValues, put, he, ih]

theorem enter_mapValues (k : μ → ν) (ms : ByPath μ) (e : Option (String × μ)) :
    (ms.mapValues k).enter (e.map (Prod.map id k)) = (ms.enter e).mapValues k := by
  cases e with
  | none => rfl
  | some e => exact put_mapValues k ms e.1 e.2

theorem sorted_mapValues (k : μ → ν) (ms : ByPath μ) : (ms.mapValues k).sorted = ms.sorted.mapValues k := by
  rw [sorted, sorted, mapValues, mapValues]
  exact (List.map_mergeSort (f := Prod.map id k) (r := fun a b : String × μ => decide (a.1 ≤ b.1))
    (s := fun a b : String × ν => decide (a.1 ≤ b.1)) fun _ _ _ _ => rfl).symm

end ByPath

namespace Fragment

variable {σ μ ν : Type}

def mapMounts (k : μ → ν) (f : Fragment σ μ) : Fragment σ ν := ⟨f.activation, f.mounts.mapValues k⟩

theorem addMounts_mapValues (k : μ → ν) : ∀ (ms acc : ByPath μ),
    addMounts (acc.mapValues k) (ms.mapValues k) = ByPath.mapValues k <$> addMounts acc ms
  | [], acc => rfl
  | (path, m) :: rest, acc => by
    change addMounts (acc.mapValues k) ((path, k m) :: ByPath.mapValues k rest) = _
    rw [addMounts, addMounts, ByPath.contains_mapValues, ByPath.put_mapValues, addMounts_mapValues k rest]
    split <;> simp

theorem add_mapMounts (k : μ → ν) (acc f : Fragment σ μ) :
    (acc.mapMounts k).add (f.mapMounts k) = mapMounts k <$> acc.add f := by
  simp [add, mapMounts, addMounts_mapValues]

end Fragment

/-! ## The walks below another root -/

namespace Spec

theorem activation_with_root (spec : Spec) (ctx : Context) (root : String) :
    spec.activation { ctx with root := root } = spec.activation ctx := by
  cases spec <;> rfl

theorem mounting_with_root (spec : Spec) (ctx : Context) (root : String) : spec.mounting { ctx with root := root } =
    Option.map (Prod.map id (Mounting.rebase root)) <$> spec.mounting ctx := by
  cases spec with
  | btrfs _ _ mountpoint => cases mountpoint <;> rfl
  | subvolume name _ _ mountpoint =>
    have hmountpoint : subvolumeMountpoint name mountpoint { ctx with root := root } =
        subvolumeMountpoint name mountpoint ctx := rfl
    simp only [mounting, hmountpoint]
    cases subvolumeMountpoint name mountpoint ctx with
    | error e => rfl
    | ok m => cases m <;> rfl
  | swap _ =>
    simp only [mounting]
    cases ctx.device.asText <;> rfl
  | pool _ _ _ _ mountpoint _ => cases mountpoint <;> rfl
  | dataset name type options _ mountpoint _ =>
    simp only [mounting]
    cases datasetMountpoint type options mountpoint <;> rfl
  | _ => rfl

theorem mountWritten_with_root (spec : Spec) (ctx : Context) (root : String) (mounted : Bool) :
    spec.mountWritten { ctx with root := root } mounted = spec.mountWritten ctx mounted := by
  cases spec <;> rfl

theorem create_with_root (spec : Spec) (ctx : Context) (bare : Bool) (root : String) :
    spec.create { ctx with root := root } bare = spec.create ctx bare := by
  cases spec <;> rfl

end Spec

namespace Node

mutual

theorem create_with_root : ∀ (n : Node) (ctx : Context) (root : String), n.create { ctx with root := root } = n.create ctx
  | ⟨key, spec, hooks, children⟩, ctx, root => by
    have hbelow : createBelow ⟨key, spec, hooks, children⟩ { ctx with root := root } =
        createBelow ⟨key, spec, hooks, children⟩ ctx := by
      simp only [createBelow, Spec.enter_with_root]
      split
      · cases spec.enter ctx with
        | error e => rfl
        | ok inner => exact createAll_with_root children inner root
      · rfl
    rw [create_eq, create_eq, hbelow, Visit.own, Visit.own, Spec.create_with_root]

theorem createAll_with_root : ∀ (ns : List Node) (ctx : Context) (root : String),
    createAll ns { ctx with root := root } = createAll ns ctx
  | [], _, _ => rfl
  | n :: ns, ctx, root => by rw [createAll, createAll, create_with_root n, createAll_with_root ns]

end

mutual

/-- **The mount fragment of a node below another root** is the same with its filesystems below that root. -/
theorem mount_with_root : ∀ (n : Node) (ctx : Context) (root : String),
    n.mount { ctx with root := root } = Fragment.mapMounts (Mounting.rebase root) <$> n.mount ctx
  | ⟨key, spec, hooks, children⟩, ctx, root => by
    have hbelow : mountBelow ⟨key, spec, hooks, children⟩ { ctx with root := root } =
        Fragment.mapMounts (Mounting.rebase root) <$> mountBelow ⟨key, spec, hooks, children⟩ ctx := by
      simp only [mountBelow, Spec.enter_with_root]
      split
      · cases spec.enter ctx with
        | error e => rfl
        | ok inner => exact mountAll_with_root children inner root .empty
      · rfl
    rw [mount_eq, mount_eq, hbelow]
    simp only [Spec.mounting_with_root, Spec.activation_with_root, bind_map_left, map_bind, map_pure]
    refine bind_congr fun below => ?_
    cases spec.mounting ctx with
    | error e => rfl
    | ok own =>
      change (liftM (Except.ok (own.map (Prod.map id (Mounting.rebase root)))) >>= _) = liftM (Except.ok own) >>= _
      rw [Traced.liftM_ok_bind, Traced.liftM_ok_bind]
      simp only [Fragment.mapMounts, ByPath.enter_mapValues, Spec.mountWritten_with_root, Option.isSome_map]

theorem mountAll_with_root : ∀ (ns : List Node) (ctx : Context) (root : String) (acc : MountFragment),
    mountAll ns { ctx with root := root } (acc.mapMounts (Mounting.rebase root)) =
      Fragment.mapMounts (Mounting.rebase root) <$> mountAll ns ctx acc
  | [], _, _, _ => rfl
  | n :: ns, ctx, root, acc => by
    rw [mountAll, mountAll, mount_with_root n, bind_map_left, map_bind]
    refine bind_congr fun f => ?_
    rw [Fragment.add_mapMounts, bind_map_left, map_bind]
    exact bind_congr fun acc => mountAll_with_root ns ctx root acc

end

end Node

namespace Layout

theorem createDevices_with_root (root root' : String) : ∀ (ds : List Device) (members : List Recording),
    createDevices root' ds members = createDevices root ds members
  | [], _ => rfl
  | d :: ds, members => by
    have hwalk : d.node.create (d.context root' members) = d.node.create (d.context root members) :=
      d.node.create_with_root (d.context root members) root'
    simp only [createDevices, hwalk, createDevices_with_root root root' ds]

theorem mountDevices_with_root (root root' : String) : ∀ (ds : List Device) (acc : MountFragment),
    mountDevices root' ds (acc.mapMounts (Mounting.rebase root')) =
      Fragment.mapMounts (Mounting.rebase root') <$> mountDevices root ds acc
  | [], _ => rfl
  | d :: ds, acc => by
    have hwalk : d.node.mount (d.context root' []) =
        Fragment.mapMounts (Mounting.rebase root') <$> d.node.mount (d.context root []) :=
      d.node.mount_with_root (d.context root []) root'
    rw [mountDevices, mountDevices, hwalk, bind_map_left, map_bind]
    refine bind_congr fun f => ?_
    rw [Fragment.add_mapMounts, bind_map_left, map_bind]
    exact bind_congr fun acc => mountDevices_with_root root root' ds acc

/-- The plan of a layout below another root has the same filesystems below that root, and is else the same. -/
theorem plan_with_root (l : Layout) (root root' : String) :
    l.plan root' = (fun p => { p with fragment := p.fragment.mapMounts (Mounting.rebase root') }) <$> l.plan root := by
  have hcreation (order : List DeviceRef) : l.creationSteps root' order = l.creationSteps root order := by
    rw [creationSteps, creationSteps, creation, creation, createDevices_with_root root root']
  have hfragment (order : List DeviceRef) : (l.mountFragment root' order).outcome =
      Fragment.mapMounts (Mounting.rebase root') <$> (l.mountFragment root order).outcome := by
    have hwalk := mountDevices_with_root root root' (l.inOrder order) .empty
    exact (congrArg Traced.outcome hwalk).trans (Traced.outcome_map _ _)
  simp only [plan, hcreation, hfragment, bind_map_left, map_bind, map_pure]

end Layout

theorem Plan.ofTree_with_root (tree : Value) (root root' : String) : Plan.ofTree tree root' =
    (fun p => { p with fragment := p.fragment.mapMounts (Mounting.rebase root') }) <$> Plan.ofTree tree root := by
  rw [Plan.ofTree, Plan.ofTree, map_bind]
  exact bind_congr fun l => l.plan_with_root root root'

/-! ## The text of a mount script -/

def Fragment.textBelow (base : String) (f : MountFragment) : String :=
  mountSections (activationText f.activation) (String.join (f.mounts.sorted.map (fun m => m.2.scriptBelow base)))

theorem mountText_mapMounts_rebase (root : String) (f : MountFragment) :
    Layout.mountText (f.mapMounts (Mounting.rebase root)) = f.textBelow (rootBase root) := by
  have hscripts : (f.mounts.mapValues (Mounting.rebase root)).sorted.map (fun m => m.2.script) =
      f.mounts.sorted.map (fun m => m.2.scriptBelow (rootBase root)) := by
    rw [ByPath.sorted_mapValues, ByPath.mapValues, List.map_map]
    exact List.map_congr_left fun m _ => m.2.script_rebase root
  rw [Layout.mountText, Fragment.mapMounts, hscripts]
  rfl

/-- **The root only rebases mounts.**  Below two roots a layout compiles to the same, or fails in the same way; the mount
scripts are one plan's, and the targets of its filesystems begin with the one root or the other. -/
theorem root_only_rebases (tree : Value) (root root' : String) :
    (∀ f, (compile tree root).outcome = .error f ↔ (compile tree root').outcome = .error f) ∧
    ∀ c, (compile tree root).outcome = .ok c → ∃ p c',
    Plan.ofTree tree root = .ok p ∧ (compile tree root').outcome = .ok c' ∧
      c.Alike c' ∧ c.createScript = c'.createScript ∧
      c.mountScript = p.fragment.textBelow (rootBase root) ∧ c'.mountScript = p.fragment.textBelow (rootBase root') ∧
      (rootBase root = rootBase root' → c.mountScript = c'.mountScript) := by
  constructor
  · intro f
    rw [outcome_compile_eq_ofTree, outcome_compile_eq_ofTree, except_map_eq_error_iff, except_map_eq_error_iff,
      Plan.ofTree_with_root tree root root', except_map_eq_error_iff]
  intro c hc
  rw [outcome_compile_eq_ofTree] at hc
  obtain ⟨p, hp, rfl⟩ := except_map_eq_ok_iff.1 hc
  have hplan (r : String) : Plan.ofTree tree r = .ok { p with fragment := p.fragment.mapMounts (Mounting.rebase r) } := by
    rw [Plan.ofTree_with_root tree root r, hp]
    rfl
  -- The plan below a root is the plan rebased to that very root, so its text is read off in the same way.
  have hfragment : p.fragment = p.fragment.mapMounts (Mounting.rebase root) :=
    congrArg Plan.fragment (Except.ok.inj (hp.symm.trans (hplan root)))
  have hmount : Layout.mountText p.fragment = p.fragment.textBelow (rootBase root) := by
    rw [← mountText_mapMounts_rebase, ← hfragment]
  have hmount' := mountText_mapMounts_rebase root' p.fragment
  have hc' : (compile tree root').outcome =
      .ok (Plan.compiled { p with fragment := p.fragment.mapMounts (Mounting.rebase root') }) := by
    rw [outcome_compile_eq_ofTree, hplan root']
    rfl
  refine ⟨p, _, hp, hc', ⟨rfl, rfl, rfl, rfl⟩, rfl, hmount, hmount', fun hbase => ?_⟩
  exact hmount.trans ((congrArg (p.fragment.textBelow ·) hbase).trans hmount'.symm)

/-- A temporary filesystem below two roots, one with slashes at its end. -/
theorem root_only_rebases_of_nodev :
    let tree : Value := .map [entry "nodev" (.map [entry "/tmp" (node "nodev" [entry "fsType" (.text "tmpfs")])])]
    ∃ p c c', Plan.ofTree tree "/mnt" = .ok p ∧ (compile tree "/mnt").outcome = .ok c ∧
      (compile tree "/target//").outcome = .ok c' ∧ c.Alike c' ∧ c.mountScript ≠ c'.mountScript ∧
      c.mountScript = p.fragment.textBelow "/mnt" ∧ c'.mountScript = p.fragment.textBelow "/target" := by
  intro tree
  have hscripts : (do
      let c ← (compile tree "/mnt").outcome
      let c' ← (compile tree "/target//").outcome
      return c.mountScript == c'.mountScript).toOption = some false := by decide +kernel
  replace hscripts := eq_ok_of_toOption hscripts
  simp only [except_bind_eq_ok_iff, pure, Except.pure, Except.ok.injEq, beq_eq_false_iff_ne] at hscripts
  obtain ⟨c, hc, c', hc', hscripts⟩ := hscripts
  obtain ⟨p, d', hp, hd', halike, -, hmount, hmount', -⟩ := (root_only_rebases tree "/mnt" "/target//").2 c hc
  cases hc'.symm.trans hd'
  exact ⟨p, c, c', hp, hc, hc', halike, hscripts, hmount, hmount'⟩

end Provision
