import Mathlib.Data.List.Chain
import Mathlib.Logic.Relation
import Provision.Proofs.Order.Placement
/-!
# Loops

A search stops only at a loop: the path behind it leads along edges to the device that it meets again, and what is reported
is the part of the path from that device on (`isLoop_of_search`).  Where it stops at none, the finishing order that it leaves
rules out every way from a device back to itself (`Finished.not_transGen`).  So a sort fails exactly where the edges between
the listed devices close a loop, and what it reports is one (`sort_eq_cycle_iff`).
-/
namespace Provision
namespace Order

def Feeds (edges : List Edge) (producer consumer : DeviceRef) : Prop := Edge.mk producer consumer ∈ edges

/-- **A loop**: along edges from a device back to it, without meeting any other device twice. -/
structure IsLoop (edges : List Edge) (c : List DeviceRef) : Prop where
  length : 2 ≤ c.length
  closed : c.head? = c.getLast?
  nodup : c.dropLast.Nodup
  chain : c.IsChain (Feeds edges)

theorem IsLoop.exists_transGen {edges : List Edge} {c : List DeviceRef} (h : IsLoop edges c) :
    ∃ d, Relation.TransGen (Feeds edges) d d := by
  obtain ⟨hlength, hclosed, -, hchain⟩ := h
  match c with
  | d :: e :: rest =>
    have hlast : (e :: rest).getLast (List.cons_ne_nil _ _) = d := by
      simpa [List.getLast?_eq_some_getLast] using hclosed.symm
    obtain ⟨hde, hrest⟩ := List.isChain_cons_cons.1 hchain
    exact ⟨d, .head' hde (List.relationReflTransGen_of_exists_isChain_cons rest hrest hlast)⟩

/-- A path that ends where it meets one of its devices again closes a loop.  `path` lists the devices last first. -/
theorem isLoop_of_mem_path {edges : List Edge} {path : List DeviceRef} {d : DeviceRef}
    (hchain : (d :: path).IsChain (fun c p => Feeds edges p c)) (hn : path.Nodup) (hd : d ∈ path) :
    IsLoop edges (d :: (path.takeWhile (· != d)).reverse ++ [d]) := by
  -- the path is what was met since, then the device itself, then what led to it
  obtain ⟨since, before, rfl, hfresh⟩ := List.eq_append_cons_of_mem hd
  have hsince : (since ++ d :: before).takeWhile (· != d) = since := by
    rw [List.takeWhile_append_of_pos, List.takeWhile_cons_of_neg (by simp), List.append_nil]
    intro e he
    exact bne_iff_ne.2 (fun hed => hfresh (hed ▸ he))
  rw [hsince]
  refine ⟨by simp, by rw [List.getLast?_concat]; rfl, ?_, ?_⟩
  · rw [List.dropLast_concat, List.nodup_cons, List.mem_reverse, List.nodup_reverse]
    exact ⟨hfresh, hn.sublist (List.sublist_append_left _ _)⟩
  · have hback : (d :: since ++ [d]).IsChain (fun c p => Feeds edges p c) := hchain.prefix ⟨before, by simp⟩
    have hreverse : d :: since.reverse ++ [d] = (d :: since ++ [d]).reverse := by simp
    rw [hreverse, List.isChain_reverse]
    exact hback

theorem exists_of_foldlM_error {visit : List DeviceRef → DeviceRef → Except (List DeviceRef) (List DeviceRef)}
    {c : List DeviceRef} : ∀ (ds : List DeviceRef) (done : List DeviceRef),
      ds.foldlM visit done = .error c → ∃ d ∈ ds, ∃ done', visit done' d = .error c
  | [], _, h => by cases h
  | d :: ds, done, h => by
    cases hd : visit done d with
    | error e =>
      obtain rfl : e = c := by simpa [hd, bind, Except.bind] using h
      exact ⟨d, List.mem_cons_self, done, hd⟩
    | ok mid =>
      simp only [List.foldlM_cons, hd, bind, Except.bind] at h
      obtain ⟨e, he, done', hv⟩ := exists_of_foldlM_error ds mid h
      exact ⟨e, List.mem_cons_of_mem _ he, done', hv⟩

/-- **What a search stops at is a loop**, as long as its path leads along edges to the device that it visits. -/
theorem isLoop_of_search {edges : List Edge} {c : List DeviceRef} :
    ∀ (fuel : Nat) (path done : List DeviceRef) (d : DeviceRef), (d :: path).IsChain (fun c p => Feeds edges p c) →
      path.Nodup → search edges fuel path done d = .error c → IsLoop edges c
  | 0, _, _, _, _, _, h => by cases h
  | fuel + 1, path, done, d, hchain, hn, h => by
    unfold search at h
    split at h
    · rename_i hd
      cases h
      exact isLoop_of_mem_path hchain hn (by simpa using hd)
    rename_i hd
    have hd : d ∉ path := by simpa using hd
    split at h
    · cases h
    cases hfold : (consumers edges d).foldlM (fun done c => search edges fuel (d :: path) done c) done with
    | ok below => simp [hfold] at h
    | error e =>
      obtain rfl : e = c := by simpa [hfold] using h
      obtain ⟨x, hx, done', hsearch⟩ := exists_of_foldlM_error _ _ hfold
      exact isLoop_of_search fuel (d :: path) done' x (List.isChain_cons_cons.2 ⟨mem_consumers.1 hx, hchain⟩)
        (List.nodup_cons.2 ⟨hd, hn⟩) hsearch

theorem isLoop_of_cycle? {devices : List DeviceRef} {edges : List Edge} {c : List DeviceRef}
    (h : cycle? devices edges = some c) : IsLoop edges c := by
  unfold cycle? at h
  split at h
  · rename_i e hfold
    obtain rfl := Option.some.inj h
    obtain ⟨d, _, done, hsearch⟩ := exists_of_foldlM_error _ _ hfold
    exact isLoop_of_search _ [] done d (List.isChain_singleton d) List.nodup_nil hsearch
  · cases h

theorem Finished.mem_of_transGen {edges : List Edge} {done : List DeviceRef} (h : Finished edges done) {a b : DeviceRef}
    (ha : a ∈ done) (hab : Relation.TransGen (Feeds edges) a b) : b ∈ done := by
  induction hab with
  | single hstep => exact h.fed ha (mem_consumers.2 hstep)
  | tail _ hstep ih => exact h.fed ih (mem_consumers.2 hstep)

/-- **No finished device leads back to itself**: what it leads to was finished before it. -/
theorem Finished.not_transGen {edges : List Edge} {done : List DeviceRef} (h : Finished edges done) {d : DeviceRef}
    (hd : d ∈ done) : ¬ Relation.TransGen (Feeds edges) d d := by
  induction h with
  | nil => cases hd
  | @cons x done fresh fed rest ih =>
    intro hloop
    rcases List.mem_cons.1 hd with rfl | hd
    · obtain ⟨c, hstep, hback⟩ := Relation.TransGen.head'_iff.1 hloop
      have hc : c ∈ done := fed c (mem_consumers.2 hstep)
      rcases Relation.reflTransGen_iff_eq_or_transGen.1 hback with rfl | hback
      · exact fresh hc
      · exact fresh (rest.mem_of_transGen hc hback)
    · exact ih hd hloop

/-- **A search of all devices meets a loop exactly where the edges between them close one.** -/
theorem exists_cycle?_iff (devices : List DeviceRef) (edges : List Edge) :
    (∃ c, cycle? devices (between devices edges) = some c) ↔
      ∃ d, Relation.TransGen (Feeds (between devices edges)) d d := by
  constructor
  · rintro ⟨c, hc⟩
    exact (isLoop_of_cycle? hc).exists_transGen
  · rintro ⟨d, hloop⟩
    cases hc : cycle? devices (between devices edges) with
    | some c => exact ⟨c, rfl⟩
    | none =>
      obtain ⟨done, hf, hsub⟩ := finished_of_cycle?_eq_none (fun e he => (mem_between.1 he).2.2) hc
      obtain ⟨c, hstep, -⟩ := Relation.TransGen.head'_iff.1 hloop
      exact absurd hloop (hf.not_transGen (hsub (mem_between.1 hstep).2.1))

theorem sort_eq_error_iff {devices : List DeviceRef} {edges : List Edge} {c : List DeviceRef} :
    sort devices edges = .error c ↔ cycle? devices (between devices edges) = some c := by
  unfold sort
  dsimp only
  cases cycle? devices (between devices edges) <;> simp

end Order

theorem Requirement.sort_eq_error_iff {requirements : List Requirement} {devices : List DeviceRef} {fault : Fault} :
    Requirement.sort requirements devices = .error fault ↔
      ∃ c, fault = .cycle c ∧
        Order.cycle? devices (Order.between devices (requirements.flatMap Requirement.edges)) = some c := by
  unfold Requirement.sort
  simp only [← Order.sort_eq_error_iff]
  cases Order.sort devices (requirements.flatMap Requirement.edges) <;> simp [Except.mapError, eq_comm]

/-- **A sort fails exactly where devices feed each other in a loop.**  Only edges between listed devices count.  The fault
is then a loop of them: at least two entries, the first and the last the same and no other device twice, every entry feeding
the next.  Everywhere else there is an order, and it holds every device once. -/
theorem sort_eq_cycle_iff (requirements : List Requirement) (devices : List DeviceRef) :
    let edges := Order.between devices (requirements.flatMap Requirement.edges)
    ((∃ c, Requirement.sort requirements devices = .error (.cycle c)) ↔
      ∃ d, Relation.TransGen (Order.Feeds edges) d d) ∧
    (∀ fault, Requirement.sort requirements devices = .error fault → ∃ c, fault = .cycle c ∧ Order.IsLoop edges c) ∧
    ((¬ ∃ d, Relation.TransGen (Order.Feeds edges) d d) →
      ∃ order, Requirement.sort requirements devices = .ok order ∧ (devices.Nodup → order.Perm devices)) := by
  intro edges
  have hcycle := Order.exists_cycle?_iff devices (requirements.flatMap Requirement.edges)
  refine ⟨?_, fun fault h => ?_, fun hnone => ?_⟩
  · rw [← hcycle]
    refine exists_congr (fun c => ?_)
    simp [Requirement.sort_eq_error_iff]
  · obtain ⟨c, hfault, hc⟩ := Requirement.sort_eq_error_iff.1 h
    exact ⟨c, hfault, Order.isLoop_of_cycle? hc⟩
  · cases hs : Requirement.sort requirements devices with
    | error fault =>
      obtain ⟨c, -, hc⟩ := Requirement.sort_eq_error_iff.1 hs
      exact absurd (hcycle.1 ⟨c, hc⟩) hnone
    | ok order => exact ⟨order, rfl, fun hn => Order.perm_of_sort hn (Requirement.sort_eq_ok hs)⟩

/-- Two volume groups that hold a member of each other, a disk that leads to them, and a member of a group that is not
listed. -/
theorem sort_eq_cycle_iff_of_two_groups :
    let disk : DeviceRef := ⟨"disk", "a"⟩
    let one : DeviceRef := ⟨"lvm_vg", "one"⟩
    let two : DeviceRef := ⟨"lvm_vg", "two"⟩
    let devices := [disk, one, two]
    let requirements : List Requirement := [⟨two, [disk, one]⟩, ⟨⟨"lvm_vg", "gone"⟩, [two]⟩, ⟨one, [two]⟩]
    Requirement.sort requirements devices = .error (.cycle [two, one, two]) ∧
      ∃ d, Relation.TransGen (Order.Feeds (Order.between devices (requirements.flatMap Requirement.edges))) d d := by
  intro disk one two devices requirements
  have hs : Requirement.sort requirements devices = .error (.cycle [two, one, two]) := by rfl
  exact ⟨hs, (sort_eq_cycle_iff requirements devices).1.1 ⟨_, hs⟩⟩

end Provision
