import Provision.Proofs.Layout.WellFormed
import Provision.Proofs.Prerequisite
import Provision.Proofs.Shell.Programs
/-!
# The packages and the programs of nodes

A node names packages, and its creation, its activation and its mount call programs.  What these call belongs to a package
that the node itself names, or the only kind of node that can hold it (`Spec.provides_of_mem_creationPrograms`,
`Spec.covers_activationPrograms`, `Spec.provides_of_mounting`), with two exceptions: some nodes are mounted without
naming the package for it (`Spec.MountsUnnamed`), and some wait for block devices without doing so (`Spec.SettlesUnnamed`).
-/
namespace Provision

open Prerequisite (IsListed Provides Covers)

namespace Kind

/-- The kind of the nodes that hold the nodes of a kind, where only one does. -/
def holder? : Kind → Option Kind
  | partition => some table
  | subvolume => some btrfs
  | logicalVolume => some volumeGroup
  | dataset => some pool
  | _ => none

/-- The packages that the nodes of a kind name for themselves and for the nodes that they alone hold. -/
def heldPackages : Kind → List String
  | table => ["parted", "systemd"]
  | btrfs => ["btrfs-progs"]
  | volumeGroup => ["lvm2"]
  | pool => ["zfs"]
  | _ => []

theorem eq_of_takes {k j h : Kind} (htakes : k.holding.takes j = true) (hholder : j.holder? = some h) : k = h := by
  cases j <;> cases hholder <;> cases k <;> first | rfl | cases htakes

end Kind

theorem Layout.WellFormed.exists_holder {l : Layout} (hl : l.WellFormed) {n : Node} (hn : n ∈ l.nodes) {k : Kind}
    (hk : n.spec.kind.holder? = some k) : ∃ m ∈ l.nodes, m.spec.kind = k := by
  obtain ⟨d, hd, hn⟩ := mem_nodes_iff.1 hn
  obtain rfl | ⟨x, hx, -, htakes⟩ := (hl.fits d hd).exists_holder hn
  · rw [hl.kind d hd] at hk
    cases hg : d.group <;> rw [hg] at hk <;> cases hk
  · exact ⟨x, mem_nodes_iff.2 ⟨d, hd, hx⟩, Kind.eq_of_takes htakes hk⟩

namespace Spec

def packages (spec : Spec) : List String := (spec.tools.toOption).getD []

theorem heldPackages_subset : ∀ spec : Spec, spec.kind.heldPackages ⊆ spec.packages
  | table _ | btrfs .. | volumeGroup _ => List.Subset.refl _
  | pool .. => List.subset_cons_self _ _
  | disk .. | partition .. | filesystem .. | subvolume .. | swap _ | physicalVolume _ | logicalVolume .. | poolMember _
  | dataset .. | arrayMember _ | array .. | luks .. | nodev .. => List.nil_subset _

def available (spec : Spec) : List String :=
  spec.packages ++ match spec.kind.holder? with
    | some k => k.heldPackages
    | none => []

def creationPrograms : Spec → List String
  | table _ => ["parted"]
  | partition .. => ["parted", "udevadm"]
  | filesystem format .. => ["mkfs." ++ format.toText]
  | btrfs .. => ["mkfs.btrfs"]
  | subvolume .. => ["mktemp", "mount", "trap", "btrfs"]
  | swap _ => ["mkswap"]
  | physicalVolume _ => ["pvcreate"]
  | volumeGroup _ => ["vgcreate"]
  | logicalVolume .. => ["lvcreate"]
  | pool .. => ["zpool"]
  | dataset _ .filesystem .. => ["zfs"]
  | dataset _ .volume .. => ["zfs", "udevadm"]
  | array .. => ["echo", "mdadm", "udevadm"]
  | luks .. => ["cryptsetup"]
  | disk .. | poolMember _ | arrayMember _ | nodev .. => []

def activationPrograms : Spec → List String
  | volumeGroup _ => ["vgchange"]
  | pool .. => ["zpool"]
  | array .. => ["[", "mdadm"]
  | luks .. => ["cryptsetup"]
  | _ => []

variable {spec : Spec} {ctx : Context}

theorem mem_creationPrograms_iff {devices : List String} {as : List Action} (h : spec.actions ctx devices = .ok as)
    {p : String} :
    (∃ a ∈ as, p ∈ a.programs) ↔ p ∈ spec.creationPrograms := by
  cases spec
  case partition =>
    cases h
    have hsettle (hp : p ∈ Action.settle.programs) : p ∈ ["parted", "udevadm"] := by
      obtain rfl : p = "udevadm" := by simpa [Action.programs] using hp
      decide
    have hparted (hp : p ∈ ["parted"]) : p ∈ ["parted", "udevadm"] := List.mem_cons.2 (.inl (List.mem_singleton.1 hp))
    constructor
    · rintro ⟨a, ha, hp⟩
      simp only [List.mem_append, List.mem_cons, List.not_mem_nil, or_false, List.mem_map] at ha
      obtain (((rfl | rfl) | ha) | ⟨flag, -, rfl⟩) | rfl := ha
      · exact hparted hp
      · exact hsettle hp
      · split at ha
        · cases List.mem_singleton.1 ha
          exact hparted hp
        · cases ha
      · exact hparted hp
      · exact hsettle hp
    · intro hp
      rcases List.mem_cons.1 hp with rfl | hp
      · exact ⟨_, List.mem_cons_self, List.mem_cons_self⟩
      · exact ⟨.settle, by simp, List.mem_cons_of_mem _ hp⟩
  case dataset name type options mountOptions mountpoint size =>
    cases type <;> cases h <;> simp [Action.programs, creationPrograms, Action.words]
  case subvolume | logicalVolume | pool =>
    obtain ⟨_, _, h⟩ := except_bind_eq_ok_iff.1 h
    cases h
    simp [Action.programs, creationPrograms, Action.words]
  all_goals
    cases h
    simp [Action.programs, creationPrograms, Action.words, unlockWords, or_assoc]

theorem mem_activationPrograms_iff (ctx : Context) {p : String} :
    (∃ a ∈ spec.activation ctx, p ∈ a.programs) ↔ p ∈ spec.activationPrograms := by
  cases spec <;> simp [activation, activationPrograms, Activation.programs]

/-- Whether a node is mounted, be it for its own creation, but neither it nor the node that holds it names the package. -/
def MountsUnnamed : Spec → Prop
  | btrfs _ _ mountpoint => mountpoint.isSome = true
  | subvolume .. | nodev .. => True
  | _ => False

/-- Whether the creation of a node waits for block devices, but neither it nor the node that holds it names the package. -/
def SettlesUnnamed : Spec → Prop
  | dataset _ type .. => type = .volume
  | array .. => True
  | _ => False

theorem MountsUnnamed.exists_mounting (h : spec.MountsUnnamed) (ctx : Context) :
    "mount" ∈ spec.creationPrograms ∨ ∃ e, spec.mounting ctx = .ok (some e) := by
  cases spec
  case btrfs extraArgs mountOptions mountpoint =>
    obtain ⟨m, rfl⟩ := Option.isSome_iff_exists.1 h
    exact .inr ⟨_, rfl⟩
  case subvolume => exact .inl (by simp [creationPrograms])
  case nodev => exact .inr ⟨_, rfl⟩
  all_goals cases h

theorem SettlesUnnamed.mem_creationPrograms (h : spec.SettlesUnnamed) : "udevadm" ∈ spec.creationPrograms := by
  cases spec
  case dataset => cases h; simp [creationPrograms]
  case array => simp [creationPrograms]
  all_goals cases h

section Filesystem

variable {format : Value} {mountpoint : String} {extraArgs mountOptions : List String}
  (htools : ∃ us, (filesystem format mountpoint extraArgs mountOptions).tools = .ok us)
include htools

/-- A filesystem names the package of mounting, and that of its maker where it is known. -/
theorem packages_filesystem :
    (filesystem format mountpoint extraArgs mountOptions).packages = "util-linux" :: (formatPackage? format).toList := by
  obtain ⟨us, htools⟩ := htools
  rw [packages, htools]
  rw [tools] at htools
  split at htools <;> cases htools
  rfl

theorem mem_of_mem_packages_filesystem {package : String}
    (h : package ∈ (filesystem format mountpoint extraArgs mountOptions).packages) :
    package ∈ ["util-linux", "xfsprogs", "btrfs-progs", "dosfstools", "e2fsprogs", "bcachefs-tools"] := by
  rw [packages_filesystem htools] at h
  rcases List.mem_cons.1 h with rfl | h
  · exact List.mem_cons_self
  · rw [Option.mem_toList] at h
    unfold formatPackage? at h
    split at h <;> cases h <;> decide

end Filesystem

/-- **The creation of a node calls only programs that are provided**, apart from mounting and waiting for block devices. -/
theorem provides_of_mem_creationPrograms (htools : ∃ us, spec.tools = .ok us) {p : String} (hp : p ∈ spec.creationPrograms)
    (hlisted : IsListed p) :
    Provides spec.available p ∨ p = "mount" ∧ spec.MountsUnnamed ∨ p = "udevadm" ∧ spec.SettlesUnnamed := by
  have own {packages programs : List String} (h : Covers packages programs) (hp : p ∈ programs) : Provides packages p :=
    h p hp hlisted
  cases spec
  case table => exact .inl (own (by decide +kernel : Covers ["parted", "systemd"] ["parted"]) hp)
  case partition => exact .inl (own (by decide +kernel : Covers ["parted", "systemd"] ["parted", "udevadm"]) hp)
  case filesystem format mountpoint extraArgs mountOptions =>
    obtain rfl := List.mem_singleton.1 hp
    have hkey : format.isKey = true := by
      obtain ⟨us, htools⟩ := htools
      by_contra hkey
      rw [tools, if_neg hkey] at htools
      cases htools
    obtain ⟨s, rfl⟩ := Prerequisite.exists_text_of_isListed hkey hlisted
    have hmakers : ∀ f ∈ ["btrfs", "vfat", "ext4", "xfs"],
        Provides ("util-linux" :: (formatPackage? (.text f)).toList) ("mkfs." ++ f) := by decide +kernel
    rw [available, packages_filesystem htools]
    exact .inl ((hmakers s (Prerequisite.format_of_isListed hlisted)).mono (List.subset_append_left _ _))
  case btrfs => exact .inl (own (by decide +kernel : Covers ["btrfs-progs"] ["mkfs.btrfs"]) hp)
  case subvolume =>
    have hall : ∀ p ∈ ["mktemp", "mount", "trap", "btrfs"],
        p = "mount" ∨ (IsListed p → Provides ["coreutils", "btrfs-progs"] p) := by decide +kernel
    exact (hall p hp).elim (fun hmount => .inr (.inl ⟨hmount, trivial⟩)) (fun h => .inl (h hlisted))
  case swap => exact .inl (own (by decide +kernel : Covers ["gnugrep", "util-linux"] ["mkswap"]) hp)
  case physicalVolume => exact .inl (own (by decide +kernel : Covers ["lvm2"] ["pvcreate"]) hp)
  case volumeGroup => exact .inl (own (by decide +kernel : Covers ["lvm2"] ["vgcreate"]) hp)
  case logicalVolume => exact .inl (own (by decide +kernel : Covers ["lvm2"] ["lvcreate"]) hp)
  case pool => exact .inl (own (by decide +kernel : Covers ["util-linux", "zfs"] ["zpool"]) hp)
  case dataset name type options mountOptions mountpoint size =>
    cases type with
    | filesystem => exact .inl (own (by decide +kernel : Covers ["util-linux", "zfs"] ["zfs"]) hp)
    | volume =>
      rcases List.mem_cons.1 hp with rfl | hp
      · exact .inl (own (by decide +kernel : Covers ["util-linux", "zfs"] ["zfs"]) List.mem_cons_self)
      · exact .inr (.inr ⟨List.mem_singleton.1 hp, rfl⟩)
  case array =>
    have hall : ∀ p ∈ ["echo", "mdadm", "udevadm"], p = "udevadm" ∨ (IsListed p → Provides ["mdadm"] p) := by decide +kernel
    exact (hall p hp).elim (fun hsettle => .inr (.inr ⟨hsettle, trivial⟩)) (fun h => .inl (h hlisted))
  case luks => exact .inl (own (by decide +kernel : Covers ["cryptsetup"] ["cryptsetup"]) hp)
  all_goals cases hp

theorem covers_activationPrograms : ∀ spec : Spec, Covers spec.available spec.activationPrograms
  | volumeGroup _ => (by decide +kernel : Covers ["lvm2"] ["vgchange"])
  | pool .. => (by decide +kernel : Covers ["util-linux", "zfs"] ["zpool"])
  | array .. => (by decide +kernel : Covers ["mdadm"] ["[", "mdadm"])
  | luks .. => (by decide +kernel : Covers ["cryptsetup"] ["cryptsetup"])
  | disk .. | table _ | partition .. | filesystem .. | btrfs .. | subvolume .. | swap _ | physicalVolume _ | logicalVolume ..
  | poolMember _ | dataset .. | arrayMember _ | nodev .. => fun _ hp => absurd hp List.not_mem_nil

/-- The mount of a node calls only programs that are provided, unless the node does not name the package. -/
theorem provides_of_mounting {path : String} {m : Mounting} (htools : ∃ us, spec.tools = .ok us)
    (hm : spec.mounting ctx = .ok (some (path, m))) {p : String} (hp : p ∈ m.programs) :
    Provides spec.available p ∨ p ∈ ["findmnt", "mount"] ∧ spec.MountsUnnamed := by
  have hmount {packages : List String} (hnamed : "util-linux" ∈ packages) (hp : p ∈ ["findmnt", "mount"]) :
      Provides packages p := by
    have hall : ∀ p ∈ ["findmnt", "mount"], Provides ["util-linux"] p := by decide +kernel
    exact (hall p hp).mono (List.cons_subset.2 ⟨hnamed, List.nil_subset _⟩)
  cases spec
  case filesystem =>
    cases hm
    refine .inl (hmount (List.mem_append_left _ ?_) hp)
    rw [packages_filesystem htools]
    exact List.mem_cons_self
  case btrfs extraArgs mountOptions mountpoint =>
    obtain ⟨_, hmountpoint, h⟩ := Option.map_eq_some_iff.1 (Except.ok.inj hm)
    cases h
    exact .inr ⟨hp, by simp [MountsUnnamed, hmountpoint]⟩
  case subvolume =>
    obtain ⟨_, -, h⟩ := except_bind_eq_ok_iff.1 hm
    obtain ⟨_, -, h⟩ := Option.map_eq_some_iff.1 (Except.ok.inj h)
    cases h
    exact .inr ⟨hp, trivial⟩
  case swap =>
    obtain ⟨device, -, h⟩ := except_bind_eq_ok_iff.1 hm
    cases h
    have hall : ∀ p ∈ ["swapon", "grep", "swapon"], Provides ["gnugrep", "util-linux"] p := by decide +kernel
    exact .inl (hall p hp)
  case pool | dataset =>
    obtain ⟨_, -, h⟩ := Option.map_eq_some_iff.1 (Except.ok.inj hm)
    cases h
    exact .inl (hmount (List.mem_append_left _ List.mem_cons_self) hp)
  case nodev =>
    cases hm
    exact .inr ⟨hp, trivial⟩
  all_goals cases hm

variable (htools : ∃ us, spec.tools = .ok us)
include htools

theorem utilLinux_mem_packages_iff :
    "util-linux" ∈ spec.packages ↔ spec.kind ∈ [Kind.filesystem, .swap, .pool, .dataset] := by
  cases spec
  case filesystem =>
    rw [packages_filesystem htools]
    exact iff_of_true List.mem_cons_self List.mem_cons_self
  all_goals simp [packages, tools, kind, Except.toOption]

theorem systemd_mem_packages_iff : "systemd" ∈ spec.packages ↔ spec.kind = .table := by
  cases spec
  case filesystem =>
    exact iff_of_false (fun hmem => absurd (mem_of_mem_packages_filesystem htools hmem) (by decide)) (by simp [kind])
  all_goals simp [packages, tools, kind, Except.toOption]

theorem coreutils_mem_packages_iff : "coreutils" ∈ spec.packages ↔ spec.kind = .subvolume := by
  cases spec
  case filesystem =>
    exact iff_of_false (fun hmem => absurd (mem_of_mem_packages_filesystem htools hmem) (by decide)) (by simp [kind])
  all_goals simp [packages, tools, kind, Except.toOption]

end Spec

end Provision
