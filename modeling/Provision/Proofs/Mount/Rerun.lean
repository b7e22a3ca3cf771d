import Provision.Proofs.Layout.Typed
import Provision.Proofs.Mount.Guards
import Provision.Proofs.Walks
/-!
# Running the mount script again

In a layout without hooks and swap devices, all that the mount script does is guarded by tests, and it settles them
(`Layout.Walked.settles`).  So once it has run to its end, running it again mounts nothing, opens nothing and assembles
nothing (`rerun_mounts_nothing`).  A device that is a list of words is the exception: its mount is guarded by a test of
the list as one word, which the mount does not make true.
-/
namespace Provision

open Shell (Clause Machine Reads Run)
open Value (entry node)

variable {σ : Type}

namespace Shell

variable {M : Machine σ} {holds : Test → σ → Bool} {cs : List Clause} {ts : List Test}

/-- **A script that settles its tests does nothing when it is run again** after it has run to its end. -/
theorem rerun_of_settles {script : String} (hscript : clauses script = some ({ words := ["set", "-efu"] } :: cs))
    (h : Settles M holds cs ts) (x : σ) : ∃ first, run M script x = some first ∧ (first.stopped = false →
      ∃ second, run M script first.world = some second ∧ ∀ ws ∈ second.calls, isAction ws = false) := by
  have hset (y : σ) : Run.steps M ({ words := ["set", "-efu"] } :: cs) { world := y } =
      Run.steps M cs { world := y, exitsOnError := true } := rfl
  have hready (y : σ) : Run.Ready { world := y, exitsOnError := true } := ⟨rfl, rfl, rfl, rfl⟩
  have hruns (y : σ) : ∃ r, run M script y = some r ∧ Run.steps M cs { world := y, exitsOnError := true } = some r ∧
      (r.stopped = false → ∀ t ∈ ts, holds t r.world = true) := by
    obtain ⟨r, hr, hend⟩ := h.runs (hready y)
    refine ⟨r, (run_eq_some_iff hscript).2 ⟨hset y ▸ hr, ?_⟩, hr, fun hrunning => (hend hrunning).2.2⟩
    cases hstopped : r.stopped with
    | true => exact .inl rfl
    | false => exact .inr (hend hstopped).1.frames
  obtain ⟨first, hfirst, -, htests⟩ := hruns x
  refine ⟨first, hfirst, fun hrunning => ?_⟩
  obtain ⟨second, hsecond, hsteps, -⟩ := hruns first.world
  obtain ⟨calls, hcalls, hidle⟩ := h.again (hready _) (htests hrunning) hsteps
  exact ⟨second, hsecond, hcalls ▸ hidle⟩

end Shell

namespace Step

def clauses : Step Activation → List Clause
  | run a => a.clauses
  | _ => []

def tests : Step Activation → List Test
  | run a => a.test?.toList
  | _ => []

def IsRepeatable (arrays : List String) : Step Activation → Prop
  | run a => a.IsRepeatable arrays
  | hook snippet => snippet = ""
  | frame .. => False

instance (arrays : List String) : ∀ s : Step Activation, Decidable (s.IsRepeatable arrays)
  | run a => inferInstanceAs (Decidable (a.IsRepeatable arrays))
  | hook snippet => inferInstanceAs (Decidable (snippet = ""))
  | frame .. => .isFalse id

theorem reads_script {arrays : List String} : ∀ {s : Step Activation}, s.IsRepeatable arrays →
    Reads {} (s.script Activation.script) s.clauses {}
  | run a, _ => a.reads_script
  | hook _, rfl => .empty

theorem settles {M : Machine σ} {holds : Test → σ → Bool} {arrays : List String} (hM : M.Faithful holds arrays) :
    ∀ {s : Step Activation}, s.IsRepeatable arrays → Settles M holds s.clauses s.tests
  | run _, h => Activation.settles hM h
  | hook _, _ => .empty

end Step

def MountFragment.clauses (f : MountFragment) : List Clause :=
  f.activation.flatMap Step.clauses ++ f.mounts.sorted.flatMap (fun m => m.2.clauses)

def MountFragment.tests (f : MountFragment) : List Test :=
  f.activation.flatMap Step.tests ++ f.mounts.sorted.flatMap (fun m => m.2.test?.toList)

section Repeatable

variable {f : MountFragment} {arrays : List String} (hsteps : ∀ s ∈ f.activation, s.IsRepeatable arrays)
include hsteps

/-- **A mount script settles the tests that guard it.** -/
theorem MountFragment.settles (hmounts : ∀ m ∈ f.mounts.sorted, m.2.IsRepeatable) {M : Machine σ} {holds : Test → σ → Bool}
    (hM : M.Faithful holds arrays) : Settles M holds f.clauses f.tests :=
  (Settles.flatMap (fun s hs => Step.settles hM (hsteps s hs))).append
    (Settles.flatMap (fun m hm => Mounting.settles hM (hmounts m hm)))

theorem Layout.clauses_mountText (hmounts : ∀ m ∈ f.mounts.sorted, m.2.clauses ≠ []) :
    Shell.clauses (mountText f) = some ({ words := ["set", "-efu"] } :: f.clauses) := by
  have hset : Reads {} mountPreamble [{ words := ["set", "-efu"] }] {} :=
    .of_tokens rfl [.sign '\n', Shell.bareWord "set", Shell.bareWord "-efu", .sign '\n', .sign '\n'] (fun _ => rfl)
      (fun _ => by simp +decide [Shell.clausesFrom, Shell.bareWord, Clause.ended])
  have hdevices : Reads {} "# activate devices\n" [] {} :=
    .of_tokens rfl [.sign '\n'] (fun _ => rfl) (fun _ => by simp [Shell.clausesFrom, Clause.ended])
  have hheading : Reads {} "\n# mount filesystems\n" [] {} :=
    .of_tokens rfl [.sign '\n', .sign '\n'] (fun _ => rfl) (fun _ => by simp [Shell.clausesFrom, Clause.ended])
  have hactivation : Reads {} (activationText f.activation) (f.activation.flatMap Step.clauses) {} :=
    .join (fun s hs => Step.reads_script (hsteps s hs))
  have hmounted : Reads {} (String.join (f.mounts.sorted.map (fun m => m.2.script)))
      (f.mounts.sorted.flatMap (fun m => m.2.clauses)) {} := .join (fun m hm => Mounting.reads_script (hmounts m hm))
  have hall := ((((hset.append hdevices).append hactivation).append hheading).append hmounted).clauses
  rw [List.append_nil, List.append_nil, List.append_assoc] at hall
  exact hall

end Repeatable

namespace Spec

/-- Whether the mount script names what it works on for a node by single words: the device of a disk or of a filesystem that
lies on none, the name of a pool or of a container. -/
def isSingle : Spec → Bool
  | disk _ device | nodev _ device .. => device.isSingle
  | pool name .. | luks name .. => name.isSingle
  | _ => true

def array? : Spec → Option String
  | array name .. => some (DevicePath.array name.toText)
  | _ => none

variable {spec : Spec} {ctx : Context} (hsingle : spec.isSingle = true) (hbase : ∀ p ∈ spec.base? ctx, p.isSingle = true)
include hsingle hbase

theorem isRepeatable_of_activation {arrays : List String} (harray : ∀ path ∈ spec.array?, path ∈ arrays) :
    ∀ a ∈ spec.activation ctx, a.IsRepeatable arrays := by
  cases spec
  case volumeGroup => exact List.forall_mem_singleton.2 trivial
  case pool => exact List.forall_mem_singleton.2 hsingle
  case array => exact List.forall_mem_singleton.2 (harray _ rfl)
  case luks => exact List.forall_mem_singleton.2 ⟨hbase _ rfl, hsingle⟩
  all_goals exact List.forall_mem_nil _

theorem isRepeatable_of_mounting (hkind : spec.kind ≠ .swap) {path : String} {m : Mounting}
    (hm : spec.mounting ctx = .ok (some (path, m))) : m.IsRepeatable := by
  cases spec
  case filesystem =>
    cases hm
    exact hbase _ rfl
  case btrfs =>
    obtain ⟨_, -, h⟩ := Option.map_eq_some_iff.1 (Except.ok.inj hm)
    cases h
    exact hbase _ rfl
  case subvolume =>
    obtain ⟨_, -, hm⟩ := except_bind_eq_ok_iff.1 hm
    obtain ⟨_, -, h⟩ := Option.map_eq_some_iff.1 (Except.ok.inj hm)
    cases h
    exact hbase _ rfl
  case swap => exact absurd rfl hkind
  case pool =>
    obtain ⟨_, -, h⟩ := Option.map_eq_some_iff.1 (Except.ok.inj hm)
    cases h
    exact hsingle
  case dataset =>
    obtain ⟨_, -, h⟩ := Option.map_eq_some_iff.1 (Except.ok.inj hm)
    cases h
    exact beq_self_eq_true _
  case nodev =>
    cases hm
    exact hsingle
  all_goals cases hm

end Spec

namespace Layout

def arrays (l : Layout) : List String := l.nodes.filterMap (·.spec.array?)

section Repeatable

variable {l : Layout} (hl : l.WellFormed) (hsingle : ∀ n ∈ l.nodes, n.spec.isSingle = true)
include hl hsingle

/-- Where the disks are named by single words, so are the devices on which all other nodes are placed. -/
theorem WellFormed.isSingle_base? {d : Device} (hd : d ∈ l.devices) (root : String) :
    ∀ v ∈ d.visits root [], v.node ∈ l.nodes ∧ ∀ p ∈ v.node.spec.base? v.ctx, p.isSingle = true := by
  have hdisks : ∀ p ∈ l.diskDevices, p.isSingle = true := fun p hp => by
    obtain ⟨e, he, hp⟩ := List.mem_filterMap.1 hp
    have hdisk := hsingle e.node (mem_nodes_iff.2 ⟨e, he, Node.mem_subnodes_iff.2 (.inl rfl)⟩)
    split at hp
    · rename_i hspec
      cases hp
      rwa [hspec] at hdisk
    · cases hp
  intro v hv
  obtain ⟨hnode, hbase⟩ := Node.base?_of_mem_visits (P := fun p => p.isSingle = true) (fun _ => beq_self_eq_true _) d.node _
    (hl.fits d hd) (fun p hp => hdisks p (hl.base?_mem_diskDevices hd _ p hp)) v hv
  exact ⟨mem_nodes_iff.2 ⟨d, hd, hnode⟩, hbase⟩

variable {root : String} {order : List DeviceRef} {f : MountFragment} (hf : (l.mountFragment root order).outcome = .ok f)
include hf

theorem WellFormed.isRepeatable_activation (hhooks : ∀ n ∈ l.nodes, n.hooks.preMount = "" ∧ n.hooks.postMount = "") :
    ∀ s ∈ f.activation, s.IsRepeatable l.arrays := by
  intro s hs
  rw [(perm_activation_mountDevices hf).mem_iff, Fragment.empty, List.nil_append] at hs
  obtain ⟨d, hd, hs⟩ := List.mem_flatMap.1 hs
  obtain ⟨v, hv, hs⟩ := List.mem_flatMap.1 hs
  obtain ⟨hnode, hbase⟩ := hl.isSingle_base? hsingle (mem_of_mem_inOrder hd) root v hv
  simp only [Visit.mountSteps, List.mem_append, List.mem_singleton, List.mem_map] at hs
  obtain (rfl | ⟨a, ha, rfl⟩) | rfl := hs
  · exact (hhooks _ hnode).1
  · exact Spec.isRepeatable_of_activation (hsingle _ hnode) hbase
      (fun path hpath => List.mem_filterMap.2 ⟨_, hnode, hpath⟩) a ha
  · exact (hhooks _ hnode).2

theorem WellFormed.isRepeatable_mounts (hswap : ∀ n ∈ l.nodes, n.spec.kind ≠ .swap) :
    ∀ m ∈ f.mounts.sorted, m.2.IsRepeatable := by
  intro m hm
  have hm := (mountFragment_ok hf).2.1.mem_of_mem ((List.mergeSort_perm f.mounts (fun a b => a.1 ≤ b.1)).mem_iff.1 hm)
  obtain ⟨d, hd, hm⟩ := List.mem_flatMap.1 hm
  obtain ⟨v, hv, hm⟩ := Device.mem_mountings_iff.1 hm
  obtain ⟨hnode, hbase⟩ := hl.isSingle_base? hsingle (mem_of_mem_inOrder hd) root v hv
  exact Spec.isRepeatable_of_mounting (hsingle _ hnode) hbase (hswap _ hnode) (Visit.entered?_eq_some_iff.1 hm)

end Repeatable

end Layout

/-- **Running the mount script again mounts nothing.** -/
theorem rerun_mounts_nothing {tree : Value} {root : String} {c : Compiled} (h : (compile tree root).outcome = .ok c)
    {l : Layout} (hl : (Layout.read tree).outcome = .ok l)
    (hhooks : ∀ n ∈ l.nodes, n.hooks.preMount = "" ∧ n.hooks.postMount = "") (hswap : ∀ n ∈ l.nodes, n.spec.kind ≠ .swap)
    (hsingle : ∀ n ∈ l.nodes, n.spec.isSingle = true) {M : Machine σ} {holds : Test → σ → Bool}
    (hM : M.Faithful holds l.arrays) (x : σ) :
    ∃ first, Shell.run M c.mountScript x = some first ∧ (first.stopped = false →
      ∃ second, Shell.run M c.mountScript first.world = some second ∧ ∀ ws ∈ second.calls, isAction ws = false) := by
  obtain ⟨f, hf, hscript, -⟩ := compile_mounts h hl
  have hwell := Layout.wellFormed_of_read hl
  have hsteps := hwell.isRepeatable_activation hsingle hf hhooks
  have hmounts := hwell.isRepeatable_mounts hsingle hf hswap
  rw [hscript]
  exact Shell.rerun_of_settles (Layout.clauses_mountText hsteps (fun m hm => (hmounts m hm).clauses_ne_nil))
    (MountFragment.settles hsteps hmounts hM) x

/-- A host on which every command succeeds, and which keeps the tests that commands have made true. -/
def Shell.Machine.host (arrays : List String) : Machine (List Test) where
  call
    | ["findmnt", source, target], made => (made.contains (.mounted source target), made)
    | ["cryptsetup", "status", container], made => (made.contains (.opened container), made)
    | ["zpool", "list", pool], made => (made.contains (.imported pool), made)
    | ["[", "-e", file, "]"], made => (made.contains (.present file), made)
    | "mount" :: source :: target :: _, made => (true, .mounted source target :: made)
    | "cryptsetup" :: "luksOpen" :: _ :: container :: _, made => (true, .opened container :: made)
    | ["zpool", "import", pool], made => (true, .imported pool :: made)
    | ["mdadm", "--assemble", "--scan"], made => (true, arrays.map .present ++ made)
    | _, made => (true, made)

theorem Shell.Machine.faithful_host (arrays : List String) :
    (Machine.host arrays).Faithful (fun t made => made.contains t) arrays := by
  have hkept (ws : List String) (made : List Test) : made ⊆ ((Machine.host arrays).call ws made).2 := by
    unfold host
    dsimp only
    split
    all_goals simp
  refine ⟨fun t made => by cases t <;> rfl, fun t u made hu => ?_, fun {ws t} made h _ => ?_, fun {ws} made _ _ u hu => ?_⟩
  · exact List.contains_iff_mem.2 (hkept _ _ (List.contains_iff_mem.1 hu))
  · cases h with
    | assemble hfile => simpa [host] using Or.inl hfile
    | _ => simp [host]
  · exact List.contains_iff_mem.2 (hkept _ _ (List.contains_iff_mem.1 hu))

/-- A container on a disk with a subvolume in it, an array and a pool. -/
theorem rerun_mounts_nothing_of_subvolume_in_container :
    let tree : Value := .map [
      entry "disk" (.map [
        entry "a" (node "disk" [entry "device" (.text "/dev/sda"),
          entry "content" (node "luks" [entry "name" (.text "crypt"),
          entry "content" (node "btrfs" [entry "subvolumes" (.map [entry "home" (node "btrfs_subvol" [])])])])]),
        entry "b" (node "disk" [entry "device" (.text "/dev/sdb"),
          entry "content" (node "mdraid" [entry "name" (.text "md")])])]),
      entry "mdadm" (.map [entry "md" (node "mdadm" [entry "level" (.int 1)])]),
      entry "zpool" (.map [entry "tank" (node "zpool" [])])]
    ∃ c l first second, (compile tree "/new root/").outcome = .ok c ∧ (Layout.read tree).outcome = .ok l ∧
      Shell.run (.host l.arrays) c.mountScript [] = some first ∧ first.stopped = false ∧
      first.calls.filter isAction = [["cryptsetup", "luksOpen", "/dev/sda", "crypt"], ["mdadm", "--assemble", "--scan"],
        ["zpool", "import", "tank"],
        ["mount", "/dev/mapper/crypt", "/new root/home", "-o", "defaults", "-o", "subvol=home", "-o", "X-mount.mkdir"]] ∧
      Shell.run (.host l.arrays) c.mountScript first.world = some second ∧ ∀ ws ∈ second.calls, isAction ws = false := by
  intro tree
  -- the script is not evaluated as a text, but by its clauses
  have hchecked : (Layout.read tree).outcome.toOption.bind (fun l =>
      (compile tree "/new root/").outcome.toOption.bind (fun c =>
      (l.mountFragment "/new root/" c.order).outcome.toOption.bind (fun f =>
        (Run.steps (.host l.arrays) ({ words := ["set", "-efu"] } :: f.clauses) { world := [] }).map (fun first =>
          (l.nodes.all (fun n => n.hooks.preMount == "" && n.hooks.postMount == "" && n.spec.kind != .swap &&
            n.spec.isSingle),
            first.stopped, first.calls.filter isAction))))) =
      some (true, false, [["cryptsetup", "luksOpen", "/dev/sda", "crypt"], ["mdadm", "--assemble", "--scan"],
        ["zpool", "import", "tank"],
        ["mount", "/dev/mapper/crypt", "/new root/home", "-o", "defaults", "-o", "subvol=home", "-o",
          "X-mount.mkdir"]]) := by
    decide +kernel
  obtain ⟨l, hl, hchecked⟩ := Option.bind_eq_some_iff.1 hchecked
  obtain ⟨c, hc, hchecked⟩ := Option.bind_eq_some_iff.1 hchecked
  obtain ⟨f, hf, hchecked⟩ := Option.bind_eq_some_iff.1 hchecked
  obtain ⟨first, hfirst, hchecked⟩ := Option.map_eq_some_iff.1 hchecked
  obtain ⟨hnodes, hchecked⟩ := Prod.mk.inj hchecked
  obtain ⟨hrunning, hactions⟩ := Prod.mk.inj hchecked
  simp only [List.all_eq_true, Bool.and_eq_true, beq_iff_eq, bne_iff_ne] at hnodes
  replace hc := eq_ok_of_toOption hc
  replace hl := eq_ok_of_toOption hl
  obtain ⟨first', hfirst', hagain⟩ := rerun_mounts_nothing hc hl (fun n hn => (hnodes n hn).1.1)
    (fun n hn => (hnodes n hn).1.2)
    (fun n hn => (hnodes n hn).2) (Shell.Machine.faithful_host l.arrays) []
  obtain ⟨f', hf', hscript, -⟩ := compile_mounts hc hl
  cases (eq_ok_of_toOption hf).symm.trans hf'
  have hwell := Layout.wellFormed_of_read hl
  have hclauses := Layout.clauses_mountText
    (hwell.isRepeatable_activation (fun n hn => (hnodes n hn).2) hf' (fun n hn => (hnodes n hn).1.1))
    (fun m hm => (hwell.isRepeatable_mounts (fun n hn => (hnodes n hn).2) hf'
      (fun n hn => (hnodes n hn).1.2) m hm).clauses_ne_nil)
  obtain rfl := Option.some.inj (hfirst.symm.trans ((Shell.run_eq_some_iff (hscript ▸ hclauses)).1 hfirst').1)
  obtain ⟨second, hsecond, hidle⟩ := hagain hrunning
  exact ⟨c, l, first, second, hc, hl, hfirst', hrunning, hactions, hsecond, hidle⟩

/-- A disk whose device is a list of one word: its filesystem is mounted each time, since the test asks for the list as it is
written. -/
theorem mounted_again_of_device_list :
    let tree : Value := .map [entry "disk" (.map [entry "a" (node "disk" [entry "device" (.list [.text "/dev/sda"]),
      entry "content" (node "filesystem" [entry "format" (.text "ext4"), entry "mountpoint" (.text "/data")])])])]
    let mount := ["mount", "/dev/sda", "/mnt/data", "-t", "ext4", "-o", "defaults", "-o", "X-mount.mkdir"]
    ∃ c l first second, (compile tree "/mnt").outcome = .ok c ∧ (Layout.read tree).outcome = .ok l ∧
      (∀ n ∈ l.nodes, n.hooks = {} ∧ n.spec.kind ≠ .swap) ∧
      (Machine.host l.arrays).Faithful (fun t made => made.contains t) l.arrays ∧
      Shell.run (.host l.arrays) c.mountScript [] = some first ∧ first.stopped = false ∧
      Shell.run (.host l.arrays) c.mountScript first.world = some second ∧ mount ∈ second.calls ∧ isAction mount = true := by
  intro tree mount
  -- the script is not evaluated as a text, but by its clauses
  have hchecked : (Layout.read tree).outcome.toOption.bind (fun l => (compile tree "/mnt").outcome.toOption.bind (fun c =>
      (l.mountFragment "/mnt" c.order).outcome.toOption.bind (fun f =>
        let cs : List Clause := { words := ["set", "-efu"] } :: f.clauses
        (Run.steps (.host l.arrays) cs { world := [] }).bind (fun first =>
          (Run.steps (.host l.arrays) cs { world := first.world }).map (fun second =>
            (l.nodes.all (fun n => n.hooks == {} && n.spec.kind != .swap) && f.activation.all (·.IsRepeatable l.arrays) &&
              f.mounts.sorted.all (·.2.clauses != []) && !first.stopped && first.frames == [] && second.frames == [],
              second.calls)))))) =
      some (true, [["findmnt", "['/dev/sda']", "/mnt/data"], mount]) := by
    decide +kernel
  obtain ⟨l, hl, hchecked⟩ := Option.bind_eq_some_iff.1 hchecked
  obtain ⟨c, hc, hchecked⟩ := Option.bind_eq_some_iff.1 hchecked
  obtain ⟨f, hf, hchecked⟩ := Option.bind_eq_some_iff.1 hchecked
  obtain ⟨first, hfirst, hchecked⟩ := Option.bind_eq_some_iff.1 hchecked
  obtain ⟨second, hsecond, hchecked⟩ := Option.map_eq_some_iff.1 hchecked
  simp only [Prod.mk.injEq, List.all_eq_true, Bool.and_eq_true, Bool.not_eq_true', beq_iff_eq, bne_iff_ne,
    decide_eq_true_iff] at hchecked
  obtain ⟨⟨⟨⟨⟨⟨hnodes, hsteps⟩, hmounts⟩, hrunning⟩, hfirstEnd⟩, hsecondEnd⟩, hcalls⟩ := hchecked
  replace hc := eq_ok_of_toOption hc
  replace hl := eq_ok_of_toOption hl
  obtain ⟨f', hf', hscript, -⟩ := compile_mounts hc hl
  cases (eq_ok_of_toOption hf).symm.trans hf'
  have hclauses := hscript ▸ Layout.clauses_mountText hsteps hmounts
  refine ⟨c, l, first, second, hc, hl, hnodes, Machine.faithful_host _,
    (Shell.run_eq_some_iff hclauses).2 ⟨hfirst, .inr hfirstEnd⟩, hrunning,
    (Shell.run_eq_some_iff hclauses).2 ⟨hsecond, .inr hsecondEnd⟩, ?_, rfl⟩
  rw [hcalls]
  exact List.mem_cons_of_mem _ List.mem_cons_self

end Provision
