import Provision.Proofs.Layout.Packages
import Provision.Proofs.Walks
/-!
# The packages and the programs of a layout

The scripts of a layout call what its nodes call, and a few programs of their own (`Layout.Walked.mem_createScript_iff`,
`Layout.Walked.exists_mounts`); its packages are those that its nodes name (`Layout.Walked.mem_tools_iff`).  Most nodes name
what they call, or the node that holds them does.  Mounting, waiting for block devices and the scratch directory of the
creation are left to whatever other nodes happen to name: the packages cover the scripts exactly where these suffice
(`packages_cover_scripts_iff`).
-/
namespace Provision

open Value (entry node)
open Prerequisite (IsListed Provides Covers)

def Compiled.programs (c : Compiled) : List String := Shell.commandWords c.createScript ++ Shell.commandWords c.mountScript

namespace Visit

variable {v : Visit} {p : String}

theorem isPlain_of_mem_creationSteps (hhooks : v.node.hooks = {}) (hlabel : '\n' ∉ v.node.spec.labelText.toList) :
    ∀ s ∈ v.creationSteps, s.IsPlain := by
  have hname : '\n' ∉ v.node.spec.kind.name.toList := by cases v.node.spec.kind <;> decide
  have hframe : (Step.frame v.node.spec.kind v.node.spec.label : Step Action).IsPlain := by
    rw [Spec.labelText] at hlabel
    rw [Step.IsPlain, Step.title, String.toList_append, List.mem_append, not_or]
    refine ⟨hname, ?_⟩
    split at hlabel
    · rw [if_pos ‹_›, String.toList_append, List.mem_append, not_or]
      exact ⟨by decide, hlabel⟩
    · rw [if_neg ‹_›]
      exact hlabel
  intro s hs
  rw [creationSteps, hhooks] at hs
  simp only [List.mem_append, List.mem_cons, List.not_mem_nil, or_false, List.mem_map] at hs
  obtain ((rfl | rfl) | ⟨a, -, rfl⟩) | rfl := hs
  · exact hframe
  · rfl
  · trivial
  · rfl

theorem isPlain_of_mem_mountSteps (hhooks : v.node.hooks = {}) : ∀ s ∈ v.mountSteps, s.IsPlain := by
  intro s hs
  rw [mountSteps, hhooks] at hs
  simp only [List.mem_append, List.mem_cons, List.not_mem_nil, or_false, List.mem_map] at hs
  obtain (rfl | ⟨a, -, rfl⟩) | rfl := hs
  · rfl
  · trivial
  · rfl

theorem exists_creationStep_iff (hown : v.own.outcome = .ok ()) :
    (∃ s ∈ v.creationSteps, p ∈ s.programs Action.programs) ↔ p ∈ v.node.spec.creationPrograms := by
  obtain ⟨-, devices, hactions, -⟩ := own_ok hown
  rw [← Spec.mem_creationPrograms_iff hactions]
  simp [creationSteps, Step.programs]

theorem exists_mountStep_iff :
    (∃ s ∈ v.mountSteps, p ∈ s.programs Activation.programs) ↔ p ∈ v.node.spec.activationPrograms := by
  rw [← Spec.mem_activationPrograms_iff v.ctx]
  simp [mountSteps, activations, Step.programs]

end Visit

namespace Layout

namespace Walked

variable {l : Layout} {root : String} {c : Compiled} {vs : List Visit} {p : String}

theorem exists_tools (h : l.Walked root c vs) {n : Node} (hn : n ∈ l.nodes) : ∃ us, n.spec.tools = .ok us := by
  obtain ⟨own, hown, -⟩ := h.packaged
  exact exists_of_except_mapM (f := fun n : Node => n.spec.tools) (except_mapM_eq_ok_iff.2 hown) hn

theorem mem_tools_iff (h : l.Walked root c vs) {package : String} :
    package ∈ c.tools ↔ ∃ n ∈ l.nodes, package ∈ n.spec.packages := by
  obtain ⟨own, hown, htools⟩ := h.packaged
  have hnamed : List.Forall₂ (fun n us => n.spec.packages = us) l.nodes own :=
    hown.imp (fun n us htools => by simp [Spec.packages, htools, Except.toOption])
  rw [← List.forall₂_map_left_iff, List.forall₂_eq_eq_eq] at hnamed
  rw [htools, mem_sortedOnce, ← hnamed, List.mem_flatten]
  simp

theorem available_subset (h : l.Walked root c vs) (hl : l.WellFormed) {n : Node} (hn : n ∈ l.nodes) :
    n.spec.available ⊆ c.tools := by
  intro package hpackage
  rw [h.mem_tools_iff]
  rcases List.mem_append.1 hpackage with hpackage | hpackage
  · exact ⟨n, hn, hpackage⟩
  · split at hpackage
    · rename_i k hk
      obtain ⟨m, hm, rfl⟩ := hl.exists_holder hn hk
      exact ⟨m, hm, m.spec.heldPackages_subset hpackage⟩
    · cases hpackage

section Plain

variable (h : l.Walked root c vs) (hhooks : ∀ n ∈ l.nodes, n.hooks = {})
include h hhooks

/-- **The programs that the creation script calls** are its own and those of the nodes that are met. -/
theorem mem_createScript_iff (hlabels : ∀ n ∈ l.nodes, '\n' ∉ n.spec.labelText.toList)
    (hown : ∀ v ∈ vs, v.own.outcome = .ok ()) :
    p ∈ Shell.commandWords c.createScript ↔ p ∈ ["set", "mktemp", "trap"] ∨ ∃ n ∈ l.placed, p ∈ n.spec.creationPrograms := by
  have hplain : ∀ s ∈ Creation.steps (l.creation root c.order).record, s.IsPlain := fun s hs => by
    obtain ⟨v, hv, hs⟩ := List.mem_flatMap.1 (h.created.mem_iff.1 hs)
    exact Visit.isPlain_of_mem_creationSteps (hhooks _ (h.mem_nodes hv)) (hlabels _ (h.mem_nodes hv)) s hs
  rw [h.script, commandWords_creation hplain, List.mem_append, List.mem_flatMap,
    ← h.exists_visit_iff (P := fun n => p ∈ n.spec.creationPrograms)]
  refine or_congr_right ?_
  constructor
  · rintro ⟨s, hs, hp⟩
    obtain ⟨v, hv, hs⟩ := List.mem_flatMap.1 (h.created.mem_iff.1 hs)
    exact ⟨v, hv, (Visit.exists_creationStep_iff (hown v hv)).1 ⟨s, hs, hp⟩⟩
  · rintro ⟨v, hv, hp⟩
    obtain ⟨s, hs, hp⟩ := (Visit.exists_creationStep_iff (hown v hv)).2 hp
    exact ⟨s, h.created.mem_iff.2 (List.mem_flatMap.2 ⟨v, hv, hs⟩), hp⟩

/-- **The programs that the mount script calls** are its own, those that activate the nodes that are met, and those of
the last mounting at every path. -/
theorem exists_mounts : ∃ (ms : ByPath Mounting) (es : List (String × Mounting)), ms.HoldsLast es ∧
    es.Perm (vs.filterMap Visit.entered?) ∧ ∀ p, p ∈ Shell.commandWords c.mountScript ↔
      p = "set" ∨ (∃ n ∈ l.placed, p ∈ n.spec.activationPrograms) ∨ ∃ e ∈ ms, p ∈ e.2.programs := by
  obtain ⟨f, es, hscript, hactivation, hmounts, hes⟩ := h.mounted
  refine ⟨f.mounts, es, hmounts, hes, fun p => ?_⟩
  have hplain : ∀ s ∈ f.activation, s.IsPlain := fun s hs => by
    obtain ⟨v, hv, hs⟩ := List.mem_flatMap.1 (hactivation.mem_iff.1 hs)
    exact Visit.isPlain_of_mem_mountSteps (hhooks _ (h.mem_nodes hv)) s hs
  rw [hscript, commandWords_mountText hplain, List.append_assoc, List.mem_append, List.mem_append, List.mem_singleton,
    List.mem_flatMap, List.mem_flatMap, ← h.exists_visit_iff (P := fun n => p ∈ n.spec.activationPrograms)]
  refine or_congr_right (or_congr ?_ ?_)
  · constructor
    · rintro ⟨s, hs, hp⟩
      obtain ⟨v, hv, hs⟩ := List.mem_flatMap.1 (hactivation.mem_iff.1 hs)
      exact ⟨v, hv, Visit.exists_mountStep_iff.1 ⟨s, hs, hp⟩⟩
    · rintro ⟨v, hv, hp⟩
      obtain ⟨s, hs, hp⟩ := Visit.exists_mountStep_iff.2 hp
      exact ⟨s, hactivation.mem_iff.2 (List.mem_flatMap.2 ⟨v, hv, hs⟩), hp⟩
  · simp only [ByPath.sorted, List.mem_mergeSort]

end Plain

end Walked

/-- **Where the packages of a layout are complete**: a subvolume names the package of the scratch directory that every
creation script makes; some node names that of mounting if any node needs it without naming it, and a partition table
that of waiting for block devices. -/
structure IsPackaged (l : Layout) : Prop where
  scratch : ∃ n ∈ l.nodes, n.spec.kind = .subvolume
  mounting : (∃ n ∈ l.placed, n.spec.MountsUnnamed) → ∃ n ∈ l.nodes, n.spec.kind ∈ [Kind.filesystem, .swap, .pool, .dataset]
  settling : (∃ n ∈ l.placed, n.spec.SettlesUnnamed) → ∃ n ∈ l.nodes, n.spec.kind = .table

namespace Walked

variable {l : Layout} {root : String} {c : Compiled} {vs : List Visit}

theorem mem_tools_iff_exists (h : l.Walked root c vs) {package : String} {Q : Spec → Prop}
    (hQ : ∀ {spec : Spec}, (∃ us, spec.tools = .ok us) → (package ∈ spec.packages ↔ Q spec)) :
    package ∈ c.tools ↔ ∃ n ∈ l.nodes, Q n.spec := by
  rw [h.mem_tools_iff]
  exact exists_congr (fun n => and_congr_right (fun hn => hQ (h.exists_tools hn)))

theorem coreutils_mem_tools_iff (h : l.Walked root c vs) : "coreutils" ∈ c.tools ↔ ∃ n ∈ l.nodes, n.spec.kind = .subvolume :=
  h.mem_tools_iff_exists Spec.coreutils_mem_packages_iff

theorem utilLinux_mem_tools_iff (h : l.Walked root c vs) :
    "util-linux" ∈ c.tools ↔ ∃ n ∈ l.nodes, n.spec.kind ∈ [Kind.filesystem, .swap, .pool, .dataset] :=
  h.mem_tools_iff_exists Spec.utilLinux_mem_packages_iff

theorem systemd_mem_tools_iff (h : l.Walked root c vs) : "systemd" ∈ c.tools ↔ ∃ n ∈ l.nodes, n.spec.kind = .table :=
  h.mem_tools_iff_exists Spec.systemd_mem_packages_iff

end Walked

end Layout

namespace Layout.Walked

variable {l : Layout} {root : String} {c : Compiled} {vs : List Visit}

section Covered

variable (h : l.Walked root c vs) (hhooks : ∀ n ∈ l.nodes, n.hooks = {})
  (hlabels : ∀ n ∈ l.nodes, '\n' ∉ n.spec.labelText.toList) (hown : ∀ v ∈ vs, v.own.outcome = .ok ())
include h hhooks hlabels hown

/-- **Every program that a script calls has its package**, or makes scratch directories, or some node needs it without
naming the package. -/
theorem provides_or_unnamed (hl : l.WellFormed) {p : String} (hp : p ∈ c.programs) (hlisted : IsListed p) :
    Provides c.tools p ∨ p = "mktemp" ∨ p ∈ ["findmnt", "mount"] ∧ (∃ n ∈ l.placed, n.spec.MountsUnnamed) ∨
      p = "udevadm" ∧ ∃ n ∈ l.placed, n.spec.SettlesUnnamed := by
  have hmono {n : Node} (hn : n ∈ l.placed) {p : String} (hp : Provides n.spec.available p) : Provides c.tools p :=
    hp.mono (h.available_subset hl (mem_nodes_of_mem_placed hn))
  have htools {n : Node} (hn : n ∈ l.placed) := h.exists_tools (mem_nodes_of_mem_placed hn)
  have hscratch : ∀ p ∈ ["set", "mktemp", "trap"], IsListed p → p = "mktemp" := by decide +kernel
  rcases List.mem_append.1 hp with hp | hp
  · rcases (h.mem_createScript_iff hhooks hlabels hown).1 hp with hp | ⟨n, hn, hp⟩
    · exact .inr (.inl (hscratch p hp hlisted))
    · obtain hp | ⟨rfl, hunnamed⟩ | ⟨rfl, hunnamed⟩ := Spec.provides_of_mem_creationPrograms (htools hn) hp hlisted
      · exact .inl (hmono hn hp)
      · exact .inr (.inr (.inl ⟨by decide, n, hn, hunnamed⟩))
      · exact .inr (.inr (.inr ⟨rfl, n, hn, hunnamed⟩))
  · obtain ⟨ms, es, hms, hes, hmount⟩ := h.exists_mounts hhooks
    obtain rfl | ⟨n, hn, hp⟩ | ⟨e, he, hp⟩ := (hmount p).1 hp
    · exact .inr (.inl (hscratch "set" (by decide) hlisted))
    · exact .inl (hmono hn (n.spec.covers_activationPrograms p hp hlisted))
    · obtain ⟨v, hv, hentered⟩ := List.mem_filterMap.1 (hes.mem_iff.1 (hms.mem_of_mem he))
      have hn : v.node ∈ l.placed := h.perm_placed.mem_iff.1 (List.mem_map_of_mem hv)
      obtain hp | ⟨hp, hunnamed⟩ := Spec.provides_of_mounting (htools hn) (Visit.entered?_eq_some_iff.1 hentered) hp
      · exact .inl (hmono hn hp)
      · exact .inr (.inr (.inl ⟨hp, v.node, hn, hunnamed⟩))

theorem covers_of_isPackaged (hl : l.WellFormed) (hpackaged : l.IsPackaged) : Covers c.tools c.programs := by
  intro p hp hlisted
  obtain hp | rfl | ⟨hp, hunnamed⟩ | ⟨rfl, hunnamed⟩ := h.provides_or_unnamed hhooks hlabels hown hl hp hlisted
  · exact hp
  · exact ⟨("coreutils", ["mktemp"]), by decide, h.coreutils_mem_tools_iff.2 hpackaged.scratch, List.mem_cons_self⟩
  · have hall : ∀ p ∈ ["findmnt", "mount"], Provides ["util-linux"] p := by decide +kernel
    exact (hall p hp).mono (List.cons_subset.2 ⟨h.utilLinux_mem_tools_iff.2 (hpackaged.mounting hunnamed),
      List.nil_subset _⟩)
  · exact ⟨("systemd", ["udevadm"]), by decide, h.systemd_mem_tools_iff.2 (hpackaged.settling hunnamed), List.mem_cons_self⟩

theorem isPackaged_of_covers (hcovers : Covers c.tools c.programs) : l.IsPackaged := by
  -- each program that needs it belongs to one package alone
  have hneeded {p package : String} (hp : p ∈ c.programs) (hlisted : IsListed p)
      (honly : ∀ e ∈ Prerequisite.executables, p ∈ e.2 → e.1 = package) : package ∈ c.tools :=
    (hcovers p hp hlisted).mem honly
  have hcreate {p : String} (hp : p ∈ ["set", "mktemp", "trap"] ∨ ∃ n ∈ l.placed, p ∈ n.spec.creationPrograms) :
      p ∈ c.programs := List.mem_append_left _ ((h.mem_createScript_iff hhooks hlabels hown).2 hp)
  refine ⟨?_, fun ⟨n, hn, hunnamed⟩ => ?_, fun ⟨n, hn, hunnamed⟩ => ?_⟩
  · rw [← h.coreutils_mem_tools_iff]
    exact hneeded (p := "mktemp") (hcreate (.inl (by decide))) (by decide +kernel) (by decide +kernel)
  · rw [← h.utilLinux_mem_tools_iff]
    obtain ⟨v, hv, rfl⟩ := List.mem_map.1 (h.perm_placed.mem_iff.2 hn)
    obtain hp | ⟨e, he⟩ := hunnamed.exists_mounting v.ctx
    · exact hneeded (hcreate (.inr ⟨_, hn, hp⟩)) (by decide +kernel) (by decide +kernel)
    · -- what is mounted there in the end may be a swap device, which needs the same package
      obtain ⟨ms, es, hms, hes, hmount⟩ := h.exists_mounts hhooks
      have hentered : e ∈ es := hes.mem_iff.2 (List.mem_filterMap.2 ⟨v, hv, Visit.entered?_eq_some_iff.2 he⟩)
      obtain ⟨m, hm⟩ := hms.exists_mem hentered
      have hcalls {p : String} (hp : p ∈ m.programs) : p ∈ c.programs :=
        List.mem_append_right _ ((hmount p).2 (.inr (.inr ⟨_, hm, hp⟩)))
      cases m with
      | filesystem =>
        exact hneeded (p := "mount") (hcalls (by simp [Mounting.programs])) (by decide +kernel) (by decide +kernel)
      | swap =>
        exact hneeded (p := "swapon") (hcalls (by simp [Mounting.programs])) (by decide +kernel) (by decide +kernel)
  · rw [← h.systemd_mem_tools_iff]
    exact hneeded (hcreate (.inr ⟨n, hn, hunnamed.mem_creationPrograms⟩)) (by decide +kernel) (by decide +kernel)

end Covered

end Layout.Walked

/-- **Where the packages of a layout cover its scripts.**  Every program of a known package that a script of a layout
calls is provided by the packages of the layout, apart from those that make scratch directories, mount, and wait for
block devices.  With these, the packages cover the scripts exactly where some nodes happen to name what others need; and
only then none of the programs is missing whenever a check of the packages passes. -/
theorem packages_cover_scripts_iff {tree : Value} {root : String} {c : Compiled} (h : (compile tree root).outcome = .ok c)
    {l : Layout} (hl : (Layout.read tree).outcome = .ok l) (hhooks : ∀ n ∈ l.nodes, n.hooks = {})
    (hlabels : ∀ n ∈ l.nodes, '\n' ∉ n.spec.labelText.toList) :
    (∀ p ∈ c.programs, IsListed p → p ∉ ["mktemp", "mount", "findmnt", "udevadm"] → Provides c.tools p) ∧
    (Covers c.tools c.programs ↔ l.IsPackaged) ∧
    ((∀ env, (Prerequisite.check env false c.tools).outcome = .ok () →
      ∀ p ∈ c.programs, IsListed p → p ∉ env.missing) ↔ l.IsPackaged) := by
  obtain ⟨l', hl', hcreation, hwalked⟩ := Layout.walked_of_compile h
  cases hl.symm.trans hl'
  have hwell := Layout.wellFormed_of_read hl
  have hown := Layout.own_of_mem_creationVisits hcreation
  have hiff : Covers c.tools c.programs ↔ l.IsPackaged :=
    ⟨hwalked.isPackaged_of_covers hhooks hlabels hown, hwalked.covers_of_isPackaged hhooks hlabels hown hwell⟩
  refine ⟨fun p hp hlisted hothers => ?_, hiff, Prerequisite.covers_iff.symm.trans hiff⟩
  obtain hp | rfl | ⟨hp, -⟩ | ⟨rfl, -⟩ := hwalked.provides_or_unnamed hhooks hlabels hown hwell hp hlisted
  · exact hp
  · exact absurd hothers (by decide)
  · have hmounting : ["findmnt", "mount"] ⊆ ["mktemp", "mount", "findmnt", "udevadm"] := by decide
    exact absurd (hmounting hp) hothers
  · exact absurd hothers (by decide)

/-- A subvolume on a whole disk: its creation mounts the filesystem, but no node names the package of mounting.  A check
passes on a machine where nothing can be mounted. -/
theorem mount_not_provided_of_subvolume :
    let tree : Value := .map [entry "disk" (.map [entry "a" (node "disk" [entry "device" (.text "/dev/sda"),
      entry "content" (node "btrfs" [entry "subvolumes" (.map [entry "home" (node "btrfs_subvol" [])])])])])]
    let machine : Environment := { missing := ["mount"] }
    ∃ c, (compile tree "/mnt").outcome = .ok c ∧ c.tools = ["btrfs-progs", "coreutils"] ∧
      Shell.commandWords c.createScript = ["set", "mktemp", "trap", "mkfs.btrfs", "mktemp", "mount", "trap", "btrfs"] ∧
      IsListed "mount" ∧ ¬ Provides c.tools "mount" ∧
      (Prerequisite.check machine false c.tools).outcome = .ok () := by
  intro tree machine
  have hchecked : (compile tree "/mnt").outcome.toOption.bind (fun c => (Layout.read tree).outcome.toOption.map (fun l =>
      let steps := Creation.steps (l.creation "/mnt" c.order).record
      (decide (∀ s ∈ steps, s.IsPlain), steps.flatMap (Step.programs Action.programs),
        (l.devices.mapM (fun d : Device => d.node.tools)).toOption))) =
      some (true, ["mkfs.btrfs", "mktemp", "mount", "trap", "btrfs"], some [["btrfs-progs", "coreutils"]]) := by
    decide +kernel
  obtain ⟨c, hc, hchecked⟩ := Option.bind_eq_some_iff.1 hchecked
  obtain ⟨l, hl, hchecked⟩ := Option.map_eq_some_iff.1 hchecked
  simp only [Prod.mk.injEq, decide_eq_true_eq] at hchecked
  obtain ⟨hplain, hprograms, hparts⟩ := hchecked
  replace hc := eq_ok_of_toOption hc
  obtain ⟨l', hl', -, hwalked⟩ := Layout.walked_of_compile hc
  cases (eq_ok_of_toOption hl).symm.trans hl'
  have htools : c.tools = ["btrfs-progs", "coreutils"] := by
    obtain ⟨parts, hall, htools⟩ := except_bind_eq_ok_iff.1 (Layout.compile_tools hc hl')
    obtain rfl : parts = [["btrfs-progs", "coreutils"]] := by
      cases hall.symm.trans (eq_ok_of_toOption hparts)
      rfl
    have hsorted : sortedOnce ["btrfs-progs", "coreutils"] = ["btrfs-progs", "coreutils"] := by
      have honce : ["btrfs-progs", "coreutils"].eraseDups = ["btrfs-progs", "coreutils"] := by decide +kernel
      rw [sortedOnce, honce]
      exact List.mergeSort_of_pairwise (by decide +kernel)
    exact (Except.ok.inj htools).symm.trans hsorted
  have hprovides : ¬ Provides c.tools "mount" := by
    rw [htools]
    decide +kernel
  refine ⟨c, hc, htools, ?_, by decide +kernel, hprovides,
    Prerequisite.check_eq_ok_iff.2 ⟨rfl, List.forall_mem_singleton.2 hprovides⟩⟩
  rw [hwalked.script, commandWords_creation hplain, hprograms]
  rfl

/-- A partition with a subvolume beside one for swap: together with their table they name all packages. -/
theorem packages_cover_scripts_of_swap_beside_subvolume :
    let part (content : Value) : Value := node "partition" [entry "content" content]
    let tree : Value := .map [entry "disk" (.map [entry "a" (node "disk" [entry "device" (.text "/dev/sda"),
      entry "content" (node "table" [entry "partitions" (.list [
        part (node "btrfs" [entry "subvolumes" (.map [entry "home" (node "btrfs_subvol" [])])]),
        part (node "swap" [])])])])])]
    ∃ c, (compile tree "/mnt").outcome = .ok c ∧
      ∀ env, (Prerequisite.check env false c.tools).outcome = .ok () →
        ∀ p ∈ c.programs, IsListed p → p ∉ env.missing := by
  intro part tree
  have hcompiles : (compile tree "/mnt").outcome.toOption.isSome = true := by decide +kernel
  have hchecked : (Layout.read tree).outcome.toOption.map (fun l => (
      l.nodes.map (fun n => (n.spec.kind, n.hooks)), l.nodes.all (fun n => !n.spec.labelText.toList.contains '\n'))) =
      some ([(.disk, {}), (.table, {}), (.partition, {}), (.btrfs, {}), (.subvolume, {}), (.partition, {}), (.swap, {})],
        true) := by decide +kernel
  obtain ⟨c, hc⟩ := Option.isSome_iff_exists.1 hcompiles
  obtain ⟨l, hl, hchecked⟩ := Option.map_eq_some_iff.1 hchecked
  obtain ⟨hnodes, hlabels⟩ := Prod.mk.inj hchecked
  have hkind {k : Kind} (hk : (k, ({} : Hooks)) ∈ l.nodes.map (fun n => (n.spec.kind, n.hooks))) :
      ∃ n ∈ l.nodes, n.spec.kind = k := by
    obtain ⟨n, hn, he⟩ := List.mem_map.1 hk
    exact ⟨n, hn, (Prod.mk.inj he).1⟩
  have hhooks (n : Node) (hn : n ∈ l.nodes) : n.hooks = {} := by
    have hmem : (n.spec.kind, n.hooks) ∈ l.nodes.map (fun n => (n.spec.kind, n.hooks)) := List.mem_map.2 ⟨n, hn, rfl⟩
    have hall : ∀ e ∈ l.nodes.map (fun n => (n.spec.kind, n.hooks)), e.2 = {} := by
      rw [hnodes]
      decide
    exact hall _ hmem
  have hpackaged : l.IsPackaged := by
    refine ⟨hkind (by rw [hnodes]; decide), fun _ => ?_, fun _ => hkind (by rw [hnodes]; decide)⟩
    obtain ⟨n, hn, hswap⟩ := hkind (k := .swap) (by rw [hnodes]; decide)
    exact ⟨n, hn, by rw [hswap]; decide⟩
  refine ⟨c, eq_ok_of_toOption hc, ?_⟩
  refine (packages_cover_scripts_iff (eq_ok_of_toOption hc) (eq_ok_of_toOption hl) hhooks (fun n hn => ?_)).2.2.2 hpackaged
  simpa using List.all_eq_true.1 hlabels n hn

end Provision
