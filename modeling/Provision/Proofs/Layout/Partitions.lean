import Provision.Proofs.Creation.Members
import Provision.Proofs.Layout.Attributes
import Provision.Proofs.Layout.Naming
import Provision.Proofs.Text.Keys
/-!
# The paths of partitions

The path of a partition is the path of its device, a joint that depends on how the device is named, and a number.  Paths
of different families begin differently (`DevicePath.family_eq`).  A joint ends with no digit, so in a path with a joint
the number is all that follows the last character that is no digit; without one a device whose name is that of another
and some digits has partitions with the paths of the other's (`DevicePath.partition_eq_partition_iff`).  The partitions
of a table always have different paths, those of different devices except in that way (`partition_paths_eq_iff`).
-/
namespace Provision

namespace Value

theorem isDigit_of_toText_int {i : Int} (h : 0 ≤ i) : ∀ c ∈ (toText (.int i)).toList, c.isDigit = true := by
  obtain ⟨n, rfl⟩ := Int.eq_ofNat_of_zero_le h
  exact fun c hc => isDigit_of_mem_repr hc

theorem toText_int_inj {i j : Int} (hi : 0 ≤ i) (hj : 0 ≤ j) : toText (.int i) = toText (.int j) ↔ i = j := by
  obtain ⟨n, rfl⟩ := Int.eq_ofNat_of_zero_le hi
  obtain ⟨m, rfl⟩ := Int.eq_ofNat_of_zero_le hj
  refine ⟨fun h => ?_, fun h => by rw [h]⟩
  replace h := congrArg (fun s => Nat.ofDigitChars 10 s.toList 0) (show Nat.repr n = Nat.repr m from h)
  simp only [Nat.toList_repr] at h
  rw [Nat.ofDigitChars_toDigits (by decide) (by decide), Nat.ofDigitChars_toDigits (by decide) (by decide)] at h
  rw [h]

end Value

theorem eq_of_append_digits {a b u v : List Char} {x y : Char} (hx : x.isDigit = false) (hy : y.isDigit = false)
    (hu : ∀ c ∈ u, c.isDigit = true) (hv : ∀ c ∈ v, c.isDigit = true) (h : a ++ x :: u = b ++ y :: v) : a = b ∧ u = v := by
  rcases List.append_eq_append_iff.1 h with ⟨_ | ⟨z, k⟩, rfl, hk⟩ | ⟨_ | ⟨z, k⟩, rfl, hk⟩
  · exact ⟨(List.append_nil a).symm, (List.cons.inj hk).2⟩
  · have hmem : y ∈ u := (List.cons.inj hk).2 ▸ by simp
    rw [hu y hmem] at hy
    cases hy
  · exact ⟨List.append_nil b, (List.cons.inj hk).2.symm⟩
  · have hmem : x ∈ v := (List.cons.inj hk).2 ▸ by simp
    rw [hv x hmem] at hx
    cases hx

namespace DevicePath

def Family.ofInitial? : Char → Option Family
  | 's' | 'v' => some letters
  | 'd' => some links
  | 'n' | 'm' => some numbers
  | _ => none

theorem exists_initial {d : String} {f : Family} (h : family? d = some f) :
    ∃ c, Family.ofInitial? c = some f ∧ ∀ rest, (d.toList ++ rest)[5]? = some c := by
  unfold family? at h
  dsimp only at h
  split_ifs at h with hletters hlinks hnumbers
  · rw [← h]
    simp only [List.any_cons, List.any_nil, Bool.or_false, Bool.or_eq_true, extends_iff] at hletters
    obtain ⟨tail, hd, -⟩ | ⟨tail, hd, -⟩ := hletters
    · exact ⟨'s', rfl, fun rest => by rw [hd]; rfl⟩
    · exact ⟨'v', rfl, fun rest => by rw [hd]; rfl⟩
  · rw [← h]
    obtain ⟨tail, hd, -⟩ := extends_iff.1 hlinks
    exact ⟨'d', rfl, fun rest => by rw [hd]; rfl⟩
  · rw [← h]
    simp only [List.any_cons, List.any_nil, Bool.or_false, Bool.or_eq_true, extends_iff] at hnumbers
    obtain ⟨tail, hd, -⟩ | ⟨tail, hd, -⟩ | ⟨tail, hd, -⟩ := hnumbers
    · exact ⟨'n', rfl, fun rest => by rw [hd]; rfl⟩
    · exact ⟨'m', rfl, fun rest => by rw [hd]; rfl⟩
    · exact ⟨'m', rfl, fun rest => by rw [hd]; rfl⟩

/-- **The beginning of a path tells its family.** -/
theorem family_eq {d d' : String} {f f' : Family} (h : family? d = some f) (h' : family? d' = some f') {s t : List Char}
    (heq : d.toList ++ s = d'.toList ++ t) : f = f' := by
  obtain ⟨c, hc, hget⟩ := exists_initial h
  obtain ⟨c', hc', hget'⟩ := exists_initial h'
  have hsame := hget s
  rw [heq, hget' t] at hsame
  obtain rfl := Option.some.inj hsame
  exact Option.some.inj (hc.symm.trans hc')

theorem Family.exists_joint {f : Family} (h : f ≠ .letters) : ∃ s x, f.joint.toList = s ++ [x] ∧ x.isDigit = false := by
  cases f
  case letters => exact absurd rfl h
  case links => exact ⟨['-', 'p', 'a', 'r'], 't', rfl, by decide⟩
  case numbers => exact ⟨[], 'p', rfl, by decide⟩

/-- Whether a device without a joint goes on as another one does, with the first digits of the number of one of its
partitions: partition 11 of `/dev/sda` has the path of partition 1 of `/dev/sda1`. -/
def Regroups (d number d' number' : String) : Prop :=
  family? d = some .letters ∧ ∃ digits, digits ≠ "" ∧ d' = d ++ digits ∧ number = digits ++ number'

theorem eq_of_regroups {d number d' number' p p' : String} (h : Regroups d number d' number')
    (hp : partition (.text d) number = .ok p) (hp' : partition (.text d') number' = .ok p') : p = p' := by
  obtain ⟨hletters, digits, -, rfl, rfl⟩ := h
  obtain ⟨f, hf, rfl⟩ := partition_eq_ok_iff.1 hp
  obtain ⟨f', hf', rfl⟩ := partition_eq_ok_iff.1 hp'
  obtain rfl := Option.some.inj (hf.symm.trans hletters)
  obtain rfl : Family.letters = f' := family_eq hf hf' (s := digits.toList) (t := []) (by simp [String.toList_append])
  simp [Family.joint, String.append_assoc]

/-- **Where two partitions have one path**: they have one number on one device, or the first digits of the number of one
are in the name of the other's device. -/
def Coincide (d : String) (i : Int) (d' : String) (j : Int) : Prop :=
  (d = d' ∧ i = j) ∨ Regroups d (Value.int i).toText d' (Value.int j).toText ∨
    Regroups d' (Value.int j).toText d (Value.int i).toText

theorem Coincide.eq {d : String} {i j : Int} (h : Coincide d i d j) : i = j := by
  have hnever {number number' : String} : ¬ Regroups d number d number' := fun ⟨_, digits, hne, hd, _⟩ =>
    hne (String.append_eq_left_iff.1 hd.symm)
  exact (h.resolve_right (fun h => h.elim hnever hnever)).2

variable {d d' p p' : String} {i j : Int}

theorem eq_or_exists_of_append {d number d' number' : String}
    (h : d.toList ++ number.toList = d'.toList ++ number'.toList) : d.toList = d'.toList ∧ number.toList = number'.toList ∨
      (∃ digits, digits ≠ "" ∧ d' = d ++ digits ∧ number = digits ++ number') ∨
      ∃ digits, digits ≠ "" ∧ d = d' ++ digits ∧ number' = digits ++ number := by
  rcases List.append_eq_append_iff.1 h with ⟨_ | ⟨c, cs⟩, hd, hnumber⟩ | ⟨_ | ⟨c, cs⟩, hd, hnumber⟩
  · exact .inl ⟨by simpa using hd.symm, hnumber⟩
  · refine .inr (.inl ⟨String.ofList (c :: cs), by simp, ?_, ?_⟩) <;> simp [← String.toList_inj, hd, hnumber]
  · exact .inl ⟨by simpa using hd, hnumber.symm⟩
  · refine .inr (.inr ⟨String.ofList (c :: cs), by simp, ?_, ?_⟩) <;> simp [← String.toList_inj, hd, hnumber]

theorem partition_eq_partition_iff (hi : 1 ≤ i) (hj : 1 ≤ j) (hp : partition (.text d) (Value.int i).toText = .ok p)
    (hp' : partition (.text d') (Value.int j).toText = .ok p') : p = p' ↔ Coincide d i d' j := by
  have hinj := Value.toText_int_inj (Int.le_trans (by decide) hi) (Int.le_trans (by decide) hj)
  refine ⟨fun h => ?_, ?_⟩
  · obtain ⟨f, hf, rfl⟩ := partition_eq_ok_iff.1 hp
    obtain ⟨f', hf', rfl⟩ := partition_eq_ok_iff.1 hp'
    replace h := congrArg String.toList h
    simp only [String.toList_append, List.append_assoc] at h
    obtain rfl := family_eq hf hf' h
    by_cases hletters : f = .letters
    · subst hletters
      obtain hsame | hmore | hmore := eq_or_exists_of_append h
      · exact .inl ⟨String.toList_injective hsame.1, hinj.1 (String.toList_injective hsame.2)⟩
      · exact .inr (.inl ⟨hf, hmore⟩)
      · exact .inr (.inr ⟨hf', hmore⟩)
    · obtain ⟨s, x, hjoint, hx⟩ := Family.exists_joint hletters
      simp only [hjoint, List.append_assoc, List.singleton_append] at h
      rw [← List.append_assoc, ← List.append_assoc] at h
      obtain ⟨hd, hnumber⟩ := eq_of_append_digits hx hx (Value.isDigit_of_toText_int (Int.le_trans (by decide) hi))
        (Value.isDigit_of_toText_int (Int.le_trans (by decide) hj)) h
      exact .inl ⟨String.toList_injective (List.append_cancel_right hd), hinj.1 (String.toList_injective hnumber)⟩
  · rintro (⟨rfl, rfl⟩ | h | h)
    · exact Except.ok.inj (hp.symm.trans hp')
    · exact eq_of_regroups h hp hp'
    · exact (eq_of_regroups h hp' hp).symm

end DevicePath

namespace Visit

/-- Whether a node is a partition that hands a path to what it holds. -/
def IsFoundAt (v : Visit) (p : String) : Prop :=
  v.node.spec.kind = .partition ∧ v.node.spec.inner v.ctx = .ok { v.ctx with device := .text p }

theorem isFoundAt_iff {v : Visit} {p : String} : v.IsFoundAt p ↔ v.node.spec.kind = .partition ∧
    ∃ d, v.ctx.device = .text d ∧ DevicePath.partition (.text d) v.node.spec.index.toText = .ok p := by
  obtain ⟨⟨key, spec, hooks, children⟩, ctx⟩ := v
  refine and_congr_right fun hk => ?_
  cases spec
  case partition name partType fsType start stop index flags bootable =>
    dsimp only [Spec.index]
    constructor
    · intro h
      obtain ⟨path, hpath, h⟩ := except_bind_eq_ok_iff.1 h
      obtain rfl := Value.text.inj (congrArg Context.device (Except.ok.inj h))
      cases hd : ctx.device
      case text d => exact ⟨d, rfl, by rw [← hd, hpath]⟩
      all_goals
        rw [hd] at hpath
        cases hpath
    · rintro ⟨d, hd, hpath⟩
      exact except_bind_eq_ok_iff.2 ⟨p, by rw [hd, hpath], rfl⟩
  all_goals cases hk

end Visit

namespace Layout

theorem exists_number_of_read {tree : Value} {l : Layout} (h : (read tree).outcome = .ok l) {n : Node} (hn : n ∈ l.nodes)
    (hk : n.spec.kind = .partition) : ∃ i : Nat, n.spec.index = .int (i + 1) := by
  have hl := wellFormed_of_read h
  obtain ⟨d, hd, hmem⟩ := mem_nodes_iff.1 hn
  obtain rfl | ⟨t, ht, hheld, htakes⟩ := (hl.fits d hd).exists_holder hmem
  · rw [hl.kind d hd] at hk
    cases hg : d.group <;> rw [hg] at hk <;> cases hk
  · obtain ⟨b, -, hread⟩ := exists_declaration h (mem_nodes_iff.2 ⟨d, hd, ht⟩)
    have hholding : t.spec.kind.holding = .partitions := by
      rw [hk] at htakes
      cases hkind : t.spec.kind <;> rw [hkind] at htakes <;> first | rfl | cases htakes
    obtain ⟨numbers, hnumbers, -⟩ := Node.exists_numbers_of_read hread hholding
    have hindex : n.spec.index ∈ numbers.map (fun i => .int (i + 1)) := hnumbers ▸ List.mem_map_of_mem hheld
    obtain ⟨i, -, hi⟩ := List.mem_map.1 hindex
    exact ⟨i, hi.symm⟩

theorem pairwise_index_of_read {tree : Value} {l : Layout} (h : (read tree).outcome = .ok l) {t : Node} (ht : t ∈ l.nodes)
    (hk : t.spec.kind = .table) : t.children.Pairwise (fun n m => n.spec.index ≠ m.spec.index) := by
  obtain ⟨b, -, hread⟩ := exists_declaration h ht
  obtain ⟨numbers, hnumbers, hnodup⟩ := Node.exists_numbers_of_read hread (by rw [hk]; rfl)
  rw [← List.pairwise_map (f := fun n : Node => n.spec.index), hnumbers]
  exact List.Nodup.map (fun i j hij => by have := Value.int.inj hij; omega) hnodup

theorem mem_nodes_of_mem_children {l : Layout} {t n : Node} (ht : t ∈ l.nodes) (hn : n ∈ t.children) : n ∈ l.nodes := by
  obtain ⟨d, hd, hmem⟩ := mem_nodes_iff.1 ht
  exact mem_nodes_iff.2 ⟨d, hd, Node.subnodes_subset_of_mem _ _ hmem
    (Node.mem_subnodes_iff.2 (.inr ⟨n, hn, Node.mem_subnodes_iff.2 (.inl rfl)⟩))⟩

end Layout

open DevicePath (Coincide)
open Value (entry node)

/-- **Which partitions have one path.**  The partitions of a table have different paths.  Two partitions of different devices
have different paths as well, unless the name of one device is that of the other and some digits. -/
theorem partition_paths_eq_iff {tree : Value} {l : Layout} (h : (Layout.read tree).outcome = .ok l) (root : String) :
    (∀ (d d' p p' : String) (i j : Int), 1 ≤ i → 1 ≤ j → DevicePath.partition (.text d) (Value.int i).toText = .ok p →
      DevicePath.partition (.text d') (Value.int j).toText = .ok p' → (p = p' ↔ Coincide d i d' j)) ∧
    (∀ device ∈ l.devices, ∀ t ∈ device.visits root [], t.node.spec.kind = .table →
      ∃ inner, t.node.spec.handed? t.ctx = some inner ∧ t.node.children.Pairwise (fun n m =>
        ∀ p, Visit.IsFoundAt ⟨n, inner⟩ p → ¬ Visit.IsFoundAt ⟨m, inner⟩ p)) ∧
    ∀ v ∈ l.devices.flatMap (·.visits root []), ∀ w ∈ l.devices.flatMap (·.visits root []), ∀ p q, v.IsFoundAt p →
      w.IsFoundAt q → ∃ d d', ∃ i j : Int, v.ctx.device = .text d ∧ v.node.spec.index = .int i ∧ w.ctx.device = .text d' ∧
        w.node.spec.index = .int j ∧ (p = q ↔ Coincide d i d' j) := by
  -- two partitions of the layout, wherever a walk meets them
  have hpair {v w : Visit} (hv : v.node ∈ l.nodes) (hw : w.node ∈ l.nodes) {p q : String} (hp : v.IsFoundAt p)
      (hq : w.IsFoundAt q) : ∃ d d', ∃ i j : Int, v.ctx.device = .text d ∧ v.node.spec.index = .int i ∧
        w.ctx.device = .text d' ∧ w.node.spec.index = .int j ∧ (p = q ↔ Coincide d i d' j) := by
    obtain ⟨hk, d, hd, hp⟩ := Visit.isFoundAt_iff.1 hp
    obtain ⟨hk', d', hd', hq⟩ := Visit.isFoundAt_iff.1 hq
    obtain ⟨i, hi⟩ := Layout.exists_number_of_read h hv hk
    obtain ⟨j, hj⟩ := Layout.exists_number_of_read h hw hk'
    rw [hi] at hp
    rw [hj] at hq
    exact ⟨d, d', i + 1, j + 1, hd, hi, hd', hj, DevicePath.partition_eq_partition_iff (by omega) (by omega) hp hq⟩
  have hnode {device : Device} (hdevice : device ∈ l.devices) {v : Visit} (hv : v ∈ device.visits root []) :
      v.node ∈ l.nodes :=
    Layout.mem_nodes_iff.2 ⟨device, hdevice, Node.node_mem_subnodes device.node _ v hv⟩
  refine ⟨fun d d' p p' i j => DevicePath.partition_eq_partition_iff, fun device hdevice t ht hk => ?_,
    fun v hv w hw p q => ?_⟩
  · obtain ⟨inner, hinner⟩ : ∃ inner, t.node.spec.handed? t.ctx = some inner := by
      cases hspec : t.node.spec <;> rw [hspec] at hk <;> first | exact ⟨_, rfl⟩ | cases hk
    have htable := hnode hdevice ht
    refine ⟨inner, hinner, (Layout.pairwise_index_of_read h htable hk).imp_of_mem fun {n m} hn hm hne p hp hq => hne ?_⟩
    obtain ⟨d, d', i, j, hd, hi, hd', hj, hiff⟩ := hpair (v := ⟨n, inner⟩) (w := ⟨m, inner⟩)
      (Layout.mem_nodes_of_mem_children htable hn) (Layout.mem_nodes_of_mem_children htable hm) hp hq
    obtain rfl := Value.text.inj (hd.symm.trans hd')
    dsimp only at hi hj
    rw [hi, hj, (hiff.1 rfl).eq]
  · obtain ⟨device, hdevice, hv⟩ := List.mem_flatMap.1 hv
    obtain ⟨device', hdevice', hw⟩ := List.mem_flatMap.1 hw
    exact hpair (hnode hdevice hv) (hnode hdevice' hw)

def Visit.partitionsOf (vs : List Visit) : List (Value × Value) :=
  (vs.filter (·.node.spec.kind == .partition)).map (fun v => (v.ctx.device, v.node.spec.index))

theorem Visit.exists_of_mem_partitionsOf {vs : List Visit} {d p : String} {i : Int}
    (h : (.text d, .int i) ∈ Visit.partitionsOf vs) (hp : DevicePath.partition? d (Value.int i).toText = some p) :
    ∃ v ∈ vs, v.ctx.device = .text d ∧ v.node.spec.index = .int i ∧ v.IsFoundAt p := by
  obtain ⟨v, hv, hvalue⟩ := List.mem_map.1 h
  obtain ⟨hv, hk⟩ := List.mem_filter.1 hv
  obtain ⟨hd, hi⟩ := Prod.mk.inj hvalue
  exact ⟨v, hv, hd, hi, Visit.isFoundAt_iff.2 ⟨by simpa using hk, d, hd, by rw [hi, DevicePath.partition, hp]⟩⟩

theorem partition_paths_eq_iff_of_two_partitions :
    let tree : Value := .map [entry "disk" (.map [entry "a" (node "disk" [entry "device" (.text "/dev/sda"),
      entry "content" (node "table" [entry "partitions" (.list [node "partition" [entry "content" (node "swap" [])],
        node "partition" [entry "index" (.int 12), entry "content" (node "swap" [])]])])])])]
    ∃ l, (Layout.read tree).outcome = .ok l ∧ ∃ v ∈ l.devices.flatMap (·.visits "/mnt" []),
      ∃ w ∈ l.devices.flatMap (·.visits "/mnt" []), v.IsFoundAt "/dev/sda1" ∧ w.IsFoundAt "/dev/sda12" ∧
        ¬ Coincide "/dev/sda" 1 "/dev/sda" 12 := by
  intro tree
  have hchecked : (Layout.read tree).outcome.toOption.map (fun l =>
      Visit.partitionsOf (l.devices.flatMap (·.visits "/mnt" []))) =
      some [(.text "/dev/sda", .int 1), (.text "/dev/sda", .int 12)] := by decide +kernel
  obtain ⟨l, hl, hpartitions⟩ := Option.map_eq_some_iff.1 hchecked
  replace hl := eq_ok_of_toOption hl
  obtain ⟨v, hv, hdevice, hindex, hp⟩ := Visit.exists_of_mem_partitionsOf (d := "/dev/sda") (i := 1) (p := "/dev/sda1")
    (by rw [hpartitions]; decide) (by decide +kernel)
  obtain ⟨w, hw, hdevice', hindex', hq⟩ := Visit.exists_of_mem_partitionsOf (d := "/dev/sda") (i := 12) (p := "/dev/sda12")
    (by rw [hpartitions]; decide) (by decide +kernel)
  obtain ⟨d, d', i, j, hd, hi, hd', hj, hiff⟩ := (partition_paths_eq_iff hl "/mnt").2.2 v hv w hw _ _ hp hq
  obtain rfl := Value.text.inj (hdevice.symm.trans hd)
  obtain rfl := Value.text.inj (hdevice'.symm.trans hd')
  obtain rfl := Value.int.inj (hindex.symm.trans hi)
  obtain rfl := Value.int.inj (hindex'.symm.trans hj)
  exact ⟨l, hl, v, hv, w, hw, hp, hq, fun h => absurd (hiff.2 h) (by decide)⟩

/-- Two partitions of different devices that have one path. -/
theorem partition_paths_eq_of_two_disks :
    let tree : Value := .map [entry "disk" (.map [
      entry "a" (node "disk" [entry "device" (.text "/dev/sda"), entry "content" (node "table" [
        entry "partitions" (.list [node "partition" [entry "index" (.int 11), entry "content" (node "swap" [])]])])]),
      entry "b" (node "disk" [entry "device" (.text "/dev/sda1"), entry "content" (node "table" [
        entry "partitions" (.list [node "partition" [entry "content" (node "swap" [])]])])])])]
    ∃ l, (Layout.read tree).outcome = .ok l ∧ ∃ v ∈ l.devices.flatMap (·.visits "/mnt" []),
      ∃ w ∈ l.devices.flatMap (·.visits "/mnt" []), v.ctx.device = .text "/dev/sda" ∧ w.ctx.device = .text "/dev/sda1" ∧
        v.IsFoundAt "/dev/sda11" ∧ w.IsFoundAt "/dev/sda11" := by
  intro tree
  have hchecked : (Layout.read tree).outcome.toOption.map (fun l =>
      Visit.partitionsOf (l.devices.flatMap (·.visits "/mnt" []))) =
      some [(.text "/dev/sda", .int 11), (.text "/dev/sda1", .int 1)] := by decide +kernel
  obtain ⟨l, hl, hpartitions⟩ := Option.map_eq_some_iff.1 hchecked
  obtain ⟨v, hv, hdevice, -, hp⟩ := Visit.exists_of_mem_partitionsOf (d := "/dev/sda") (i := 11) (p := "/dev/sda11")
    (by rw [hpartitions]; decide) (by decide +kernel)
  obtain ⟨w, hw, hdevice', -, hq⟩ := Visit.exists_of_mem_partitionsOf (d := "/dev/sda1") (i := 1) (p := "/dev/sda11")
    (by rw [hpartitions]; decide) (by decide +kernel)
  exact ⟨l, eq_ok_of_toOption hl, v, hv, w, hw, hdevice, hdevice', hp, hq⟩

end Provision
