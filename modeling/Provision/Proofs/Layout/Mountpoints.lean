import Provision.Proofs.Layout.Placed
/-!
# Mountpoints that were read

What holds of whatever one node declares, however it was read, holds of all nodes of a layout that was read
(`Layout.forall_of_read`).  So every mountpoint of a layout is a path from the root (`Layout.rooted_of_read`).
-/
namespace Provision

def Rooted (path : String) : Prop := path.toList.head? = some '/'

namespace Spec

def mountpoints : Spec → List String
  | filesystem _ mountpoint .. | nodev _ _ mountpoint _ => [mountpoint]
  | btrfs _ _ mountpoint | subvolume _ _ _ mountpoint | pool _ _ _ _ mountpoint _ | dataset _ _ _ _ mountpoint _ =>
    mountpoint.toList
  | _ => []

theorem exists_of_finish {p : Place} {d : Declared} {f : DatasetType → TableFormat → Spec} {spec : Spec}
    (h : Spec.finish p d f = .ok spec) : ∃ type format, spec = f type format := by
  unfold Spec.finish at h
  split at h
  · obtain ⟨type, -, h⟩ := except_bind_eq_ok_iff.1 h
    exact ⟨type, .gpt, (Except.ok.inj h).symm⟩
  · obtain ⟨format, -, h⟩ := except_bind_eq_ok_iff.1 h
    exact ⟨.filesystem, format, (Except.ok.inj h).symm⟩
  · exact ⟨.filesystem, .gpt, (Except.ok.inj h).symm⟩

theorem rooted_of_mountpoint {d : Declared} {option m : String} {default : Option Value}
    (h : d.mountpoint option default = .ok m) : Rooted m := by
  obtain ⟨v, -, h⟩ := except_bind_eq_ok_iff.1 h
  exact Declared.head?_of_mountpointOf h

theorem rooted_of_mountpoint? {d : Declared} {option : String} {m : Option String} (h : d.mountpoint? option = .ok m) :
    ∀ path ∈ m.toList, Rooted path := by
  unfold Declared.mountpoint? at h
  split at h
  · rename_i v _
    cases hm : Declared.mountpointOf (d.place option) v with
    | error e => rw [hm] at h; cases h
    | ok path =>
      rw [hm] at h
      cases h
      exact List.forall_mem_singleton.2 (Declared.head?_of_mountpointOf hm)
  · cases h
    exact fun path hpath => by cases hpath

theorem rooted_of_read {p : Place} {d : Declared} {f : DatasetType → TableFormat → Spec} (h : Spec.read p d = .ok f)
    (type : DatasetType) (format : TableFormat) : ∀ m ∈ (f type format).mountpoints, Rooted m := by
  unfold Spec.read at h
  split at h
  all_goals
    simp only [except_bind_eq_ok_iff, pure, Except.pure, Except.ok.injEq] at h
  case h_4 =>
    obtain ⟨_, -, m, hm, _, -, _, -, rfl⟩ := h
    exact List.forall_mem_singleton.2 (rooted_of_mountpoint hm)
  case h_17 =>
    obtain ⟨_, -, m, hm, _, -, rfl⟩ := h
    exact List.forall_mem_singleton.2 (rooted_of_mountpoint hm)
  case h_5 =>
    obtain ⟨_, -, _, -, m, hm, rfl⟩ := h
    exact rooted_of_mountpoint? hm
  case h_6 =>
    obtain ⟨_, -, _, -, _, -, m, hm, rfl⟩ := h
    exact rooted_of_mountpoint? hm
  case h_12 =>
    obtain ⟨_, -, _, -, _, -, m, hm, _, -, rfl⟩ := h
    exact rooted_of_mountpoint? hm
  case h_13 =>
    obtain ⟨_, -, _, -, _, -, _, -, m, hm, rfl⟩ := h
    exact rooted_of_mountpoint? hm
  all_goals
    repeat obtain ⟨_, _, h⟩ := h
    exact fun m hm => by cases hm

end Spec

/-- What holds of every declaration that is read holds of all nodes of a tree that was read. -/
theorem Node.forall_of_read {P : Spec → Prop}
    (hP : ∀ {p d f}, Spec.read p d = .ok f → ∀ type format, P (f type format)) {raw : Value} {p : Place} {n : Node}
    (h : (Node.read raw p).outcome = .ok n) : ∀ m ∈ n.subnodes, P m.spec := by
  obtain ⟨es, f, -, hf, hbelow, hfinish, -, -⟩ := Node.read_eq_ok h
  obtain ⟨type, format, hspec⟩ := Spec.exists_of_finish hfinish
  intro m hm
  obtain rfl | ⟨c, hc, hm⟩ := mem_subnodes_iff.1 hm
  · exact hspec ▸ hP hf type format
  · obtain ⟨raw', p', hlt, hread, -⟩ := read_of_mem_below hbelow hc
    exact forall_of_read hP hread m hm
termination_by sizeOf raw

namespace Layout

theorem exists_read_of_mem {tree : Value} {l : Layout} (h : (read tree).outcome = .ok l) {d : Device} (hd : d ∈ l.devices) :
    ∃ raw p, (Node.read raw p).outcome = .ok d.node := by
  obtain ⟨es, groups, -, -, hgroups, hdevices⟩ := read_eq_ok h
  rw [hdevices] at hd
  obtain ⟨⟨g, ns⟩, hg, hd⟩ := List.mem_flatMap.1 hd
  obtain ⟨n, hn, rfl⟩ := List.mem_map.1 hd
  replace hg := hgroups _ hg
  unfold readGroup at hg
  dsimp only at hg
  split at hg
  · obtain rfl : [] = ns := by simpa using hg
    cases hn
  · split at hg
    · simp only [Traced.outcome_bind_eq_ok_iff, Traced.outcome_pure, Except.ok.injEq] at hg
      obtain ⟨nodes, hnodes, rfl⟩ := hg
      obtain ⟨e, -, hread⟩ := Traced.exists_of_mem_mapM hnodes (Node.mem_of_mem_ofList hn)
      exact ⟨_, _, hread⟩
    · simp at hg

/-- **What holds of every declaration that is read** holds of all nodes of a layout that was read. -/
theorem forall_of_read {P : Spec → Prop} (hP : ∀ {p d f}, Spec.read p d = .ok f → ∀ type format, P (f type format))
    {tree : Value} {l : Layout} (h : (read tree).outcome = .ok l) : ∀ n ∈ l.nodes, P n.spec := by
  intro n hn
  obtain ⟨d, hd, hn⟩ := mem_nodes_iff.1 hn
  obtain ⟨raw, p, hread⟩ := exists_read_of_mem h hd
  exact Node.forall_of_read hP hread n hn

/-- **The mountpoints of a layout that was read** are paths from the root. -/
theorem rooted_of_read {tree : Value} {l : Layout} (h : (read tree).outcome = .ok l) :
    ∀ n ∈ l.nodes, ∀ m ∈ n.spec.mountpoints, Rooted m :=
  forall_of_read (P := fun spec => ∀ m ∈ spec.mountpoints, Rooted m) Spec.rooted_of_read h

end Layout

end Provision
