import Provision.Host.Config
import Provision.Proofs.Metadata
import Provision.Proofs.Mount.Facts
/-!
# Grouped facts

Grouping facts keeps of the filesystems with one mountpoint, and of the containers with one name, the last at the place
of the first (`lastOf`), and all swap devices (`HostConfig.ofFacts_ok`).
-/
namespace Provision

open Value (Entries)

section LastOf

variable {κ κ' α : Type} {same : κ → κ → Bool}

def under (same : κ → κ → Bool) (k : κ) (es : List (κ × α)) : List (κ × α) := es.filter (fun d => same d.1 k)

def besides (same : κ → κ → Bool) (k : κ) (es : List (κ × α)) : List (κ × α) := es.filter (fun d => !same d.1 k)

/-- **Each key once**, at its first place and as it is written there, with the last of the things under it. -/
def lastOf (same : κ → κ → Bool) : List (κ × α) → List (κ × α)
  | [] => []
  | e :: es => (e.1, ((under same e.1 es).getLast?.getD e).2) :: lastOf same (besides same e.1 es)
termination_by es => es.length
decreasing_by exact Nat.lt_succ_of_le (List.length_filter_le _ _)

@[simp] theorem lastOf_singleton (e : κ × α) : lastOf same [e] = [e] := by
  rw [lastOf, besides, List.filter_nil, lastOf]
  rfl

theorem exists_of_mem_lastOf {es : List (κ × α)} : ∀ e ∈ lastOf same es, ∃ d ∈ es, d.2 = e.2 := by
  fun_induction lastOf same es with
  | case1 => simp
  | case2 e es ih =>
    refine List.forall_mem_cons.2 ⟨?_, fun d hd => ?_⟩
    · cases hlast : (under same e.1 es).getLast? with
      | none => exact ⟨e, List.mem_cons_self, rfl⟩
      | some d => exact ⟨d, List.mem_cons_of_mem _ (List.mem_filter.1 (List.mem_of_getLast? hlast)).1, rfl⟩
    · obtain ⟨d', hd', h⟩ := ih d hd
      exact ⟨d', List.mem_cons_of_mem _ (List.mem_filter.1 hd').1, h⟩

theorem lastOf_map {f : κ → κ'} {same' : κ' → κ' → Bool} (h : ∀ k l, same' (f k) (f l) = same k l) (es : List (κ × α)) :
    lastOf same' (es.map (fun e => (f e.1, e.2))) = (lastOf same es).map (fun e => (f e.1, e.2)) := by
  fun_induction lastOf same es with
  | case1 => rw [List.map_nil, lastOf]
  | case2 e es ih =>
    have hunder : under same' (f e.1) (es.map (fun e => (f e.1, e.2))) =
        (under same e.1 es).map (fun e => (f e.1, e.2)) := by
      simp only [under, List.filter_map, Function.comp_def, h]
    have hbesides :
        besides same' (f e.1) (es.map (fun e => (f e.1, e.2))) = (besides same e.1 es).map (fun e => (f e.1, e.2)) := by
      simp only [besides, List.filter_map, Function.comp_def, h]
    rw [List.map_cons, lastOf, hbesides, ih, hunder, List.getLast?_map]
    cases (under same e.1 es).getLast? <;> rfl

/-- Written one after the other, entries are found where their keys are first and as they were written last. -/
theorem foldl_put_cons (k : Value) (v : α) (acc es : List (Value × α)) :
    es.foldl (fun t d => Entries.put t d.1 d.2) ((k, v) :: acc) = (k, ((under Value.same k es).getLast?.getD (k, v)).2) ::
      (besides Value.same k es).foldl (fun t d => Entries.put t d.1 d.2) acc := by
  induction es generalizing v acc with
  | nil => rfl
  | cons d es ih =>
    rw [List.foldl_cons, Entries.put, under, besides, List.filter_cons, List.filter_cons]
    by_cases hd : Value.same d.1 k = true
    · rw [if_pos hd, if_pos hd, if_neg (by simp [hd]), ih, List.getLast?_cons, ← under, ← besides]
      cases (under Value.same k es).getLast? <;> rfl
    · rw [if_neg hd, if_neg hd, if_pos (by simp [hd]), ih]
      rfl

theorem foldl_put_eq_lastOf (es : List (Value × α)) :
    es.foldl (fun t d => Entries.put t d.1 d.2) [] = lastOf Value.same es := by
  fun_induction lastOf Value.same es with
  | case1 => rfl
  | case2 e es ih =>
    rw [List.foldl_cons, Entries.put, foldl_put_cons, ih]

end LastOf

namespace ByPath

variable {μ : Type}

theorem lastAt?_eq_getLast? (es : List (String × μ)) (path : String) :
    lastAt? es path = ((es.filter (fun e => e.1 == path)).getLast?).map (·.2) := by
  rw [lastAt?, get?, List.getLast?_eq_head?_reverse, ← List.filter_reverse, List.head?_filter]

/-- **What is entered at paths**: each path once, with what was entered there last. -/
theorem holdsLast_lastOf (es : List (String × μ)) : HoldsLast (lastOf (· == ·) es) es := by
  fun_induction lastOf (· == ·) es with
  | case1 => exact ⟨List.nodup_nil, fun _ => rfl⟩
  | case2 e es ih =>
    have hnone : lastAt? (besides (· == ·) e.1 es) e.1 = none := by
      rw [lastAt?_eq_none_iff]
      rintro hmem
      obtain ⟨d, hd, hkey⟩ := List.mem_map.1 hmem
      simpa [hkey] using (List.mem_filter.1 hd).2
    refine ⟨List.nodup_cons.2 ⟨get?_eq_none_iff.1 ((ih.get? e.1).trans hnone), ih.nodup⟩, fun path => ?_⟩
    rw [lastAt?_eq_getLast?, List.filter_cons]
    by_cases hpath : e.1 = path
    · subst hpath
      rw [if_pos (beq_self_eq_true _), List.getLast?_cons]
      simp [get?, under]
    · have hrest : (besides (· == ·) e.1 es).filter (fun d => d.1 == path) = es.filter (fun d => d.1 == path) := by
        rw [besides, List.filter_filter]
        refine List.filter_congr fun d _ => ?_
        by_cases hd : d.1 = path
        · simp [hd, Ne.symm hpath]
        · simp [hd]
      rw [if_neg (by simpa using hpath), ← hrest, ← lastAt?_eq_getLast?, ← ih.get?]
      simp [get?, hpath]

end ByPath

namespace Fact

def fileSystem? : Fact → Option (String × FileSystem)
  | filesystem (.text m) device fsType options => some (m, ⟨device, fsType, options⟩)
  | _ => none

def swapDevice? : Fact → Option SwapDevice
  | swap device randomEncryption => some ⟨device, randomEncryption⟩
  | _ => none

def container? : Fact → Option (Value × Container)
  | unlock name device keyFile => some (name, ⟨device, if keyFile.isGiven then some keyFile else none⟩)
  | _ => none

/-- **The filesystems that facts ask for**: each mountpoint once, with its last fact. -/
def fileSystems (facts : List Fact) : ByPath FileSystem := lastOf (· == ·) (facts.filterMap fileSystem?)

/-- **The containers that facts ask for**: each name once, with its last fact. -/
def containers (facts : List Fact) : List (Value × Container) := lastOf Value.same (facts.filterMap container?)

end Fact

namespace HostConfig

theorem foldlM_add_ok : ∀ {facts : List Fact} {c c' : HostConfig}, facts.foldlM add c = .ok c' →
    (∀ m device fsType options, Fact.filesystem m device fsType options ∈ facts → ∃ s, m = .text s) →
    c'.fileSystems = ((facts.filterMap Fact.fileSystem?).map (fun e => (.text e.1, e.2))).foldl
        (fun t d => Entries.put t d.1 d.2) c.fileSystems ∧
      c'.swapDevices = c.swapDevices ++ facts.filterMap Fact.swapDevice? ∧
      c'.containers = (facts.filterMap Fact.container?).foldl (fun t d => Entries.put t d.1 d.2) c.containers
  | [], c, c', h, _ => by
    obtain rfl : c = c' := Except.ok.inj h
    exact ⟨rfl, (List.append_nil _).symm, rfl⟩
  | fact :: facts, c, c', h, htext => by
    rw [List.foldlM_cons] at h
    obtain ⟨d, hd, h⟩ := except_bind_eq_ok_iff.1 h
    obtain ⟨hfs, hswap, hcontainers⟩ := foldlM_add_ok h
      (fun m device fsType options hm => htext m device fsType options (List.mem_cons_of_mem _ hm))
    rw [hfs, hswap, hcontainers]
    cases fact with
    | filesystem m device fsType options =>
      obtain ⟨s, rfl⟩ := htext m device fsType options List.mem_cons_self
      cases hd
      exact ⟨rfl, rfl, rfl⟩
    | swap device randomEncryption =>
      cases hd
      exact ⟨rfl, List.append_assoc _ _ _, rfl⟩
    | unlock name device keyFile =>
      unfold add at hd
      dsimp only at hd
      split at hd <;> cases hd
      exact ⟨rfl, rfl, rfl⟩
    | kernelModule module =>
      unfold add at hd
      dsimp only at hd
      split at hd <;> cases hd <;> exact ⟨rfl, rfl, rfl⟩

/-- **What grouping makes of facts** whose mountpoints are texts. -/
theorem ofFacts_ok {facts : List Fact} {c : HostConfig} (h : ofFacts facts = .ok c)
    (htext : ∀ m device fsType options, Fact.filesystem m device fsType options ∈ facts → ∃ s, m = .text s) :
    c.fileSystems = (Fact.fileSystems facts).map (fun e => (.text e.1, e.2)) ∧
      c.swapDevices = facts.filterMap Fact.swapDevice? ∧ c.containers = Fact.containers facts := by
  obtain ⟨hfs, hswap, hcontainers⟩ := foldlM_add_ok h htext
  have hsame (k l : String) : Value.same (.text k) (.text l) = (k == l) := by
    rw [Bool.eq_iff_iff, Value.same_text_iff, Value.text.injEq, beq_iff_eq, eq_comm]
  exact ⟨hfs.trans ((foldl_put_eq_lastOf _).trans (lastOf_map hsame _)), hswap,
    hcontainers.trans (foldl_put_eq_lastOf _)⟩

end HostConfig

/-- **What grouping makes of the facts of a layout.** -/
theorem Layout.ofFacts_ok {l : Layout} (hl : l.WellFormed) {facts : List Fact} (hfacts : l.facts = .ok facts)
    {c : HostConfig}
    (h : HostConfig.ofFacts facts = .ok c) : c.fileSystems = (Fact.fileSystems facts).map (fun e => (.text e.1, e.2)) ∧
      c.swapDevices = facts.filterMap Fact.swapDevice? ∧ c.containers = Fact.containers facts := by
  refine HostConfig.ofFacts_ok h (fun m device fsType options hm => ?_)
  obtain ⟨path, -, rfl, -⟩ := texts_of_mem_facts hl hfacts hm
  exact ⟨path, rfl⟩

end Provision
