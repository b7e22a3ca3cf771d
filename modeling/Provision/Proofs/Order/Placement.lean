import Mathlib.Data.List.Basic
import Mathlib.Data.List.Nodup
import Mathlib.Data.List.Sort
import Provision.Metadata
import Provision.Proofs.Order.Finished
import Provision.Proofs.Traced
/-!
# The order in which devices are placed

`drain` keeps counts; what it does is said without them by `Placing`: as long as a device waits whose producers are all
placed, the earliest listed one is placed next.  The counts tell which devices those are (`Queue.Tells`), step by step.
From there: all devices are placed if no loop is met (`perm_of_sort`), every producer comes before its consumers
(`respects_of_sort`), and no other such order is smaller by listing positions (`Placing.not_lex`).
-/
namespace Provision
namespace Order

def awaited (edges : List Edge) (waiting : List DeviceRef) (d : DeviceRef) : Nat :=
  ((producers edges d).filter (fun p => waiting.contains p)).length

def Supplied (edges : List Edge) (placed : List DeviceRef) (d : DeviceRef) : Prop :=
  ∀ e ∈ edges, e.consumer = d → e.producer ∈ placed

/-- Every producer comes before the devices that consume it. -/
def Respects (edges : List Edge) (order : List DeviceRef) : Prop :=
  ∀ before d after, order = before ++ d :: after → Supplied edges before d

/-- **The placing of devices that wait**: always the earliest listed one for which no producer waits, until there is
none. -/
inductive Placing (devices : List DeviceRef) (edges : List Edge) : List DeviceRef → List DeviceRef → Prop
  | stop {waiting : List DeviceRef} (none : ∀ d ∈ waiting, awaited edges waiting d ≠ 0) : Placing devices edges waiting []
  | next {waiting order : List DeviceRef} {d : DeviceRef} (mem : d ∈ waiting) (ready : awaited edges waiting d = 0)
      (first : ∀ x ∈ waiting, awaited edges waiting x = 0 → devices.idxOf d ≤ devices.idxOf x)
      (rest : Placing devices edges (waiting.erase d) order) : Placing devices edges waiting (d :: order)

/-- **A queue tells of the devices that wait which are ready**, and for the others how many producers they await. -/
structure Queue.Tells (edges : List Edge) (waiting : List DeviceRef) (q : Queue) : Prop where
  nodup : q.ready.Nodup
  ready : ∀ d, d ∈ q.ready ↔ d ∈ waiting ∧ awaited edges waiting d = 0
  blocked : q.blocked =
    (waiting.filter (fun d => awaited edges waiting d != 0)).map (fun d => (d, awaited edges waiting d))

theorem nodup_eraseDups {α : Type} [BEq α] [LawfulBEq α] : ∀ (ds : List α), ds.eraseDups.Nodup
  | [] => by simp
  | d :: ds => by
    rw [List.eraseDups_cons, List.nodup_cons]
    refine ⟨by simp, nodup_eraseDups _⟩
termination_by ds => ds.length
decreasing_by
  simp only [List.length_cons]
  exact Nat.lt_succ_of_le (List.length_filter_le _ _)

theorem mem_producers {edges : List Edge} {p d : DeviceRef} : p ∈ producers edges d ↔ ⟨p, d⟩ ∈ edges := by
  simp only [producers, List.mem_eraseDups, List.mem_map, List.mem_filter, beq_iff_eq]
  constructor
  · rintro ⟨e, ⟨he, rfl⟩, rfl⟩
    exact he
  · intro h
    exact ⟨_, ⟨h, rfl⟩, rfl⟩

theorem awaited_eq_zero_iff {edges : List Edge} {waiting : List DeviceRef} {d : DeviceRef} :
    awaited edges waiting d = 0 ↔ ∀ e ∈ edges, e.consumer = d → e.producer ∉ waiting := by
  simp only [awaited, List.length_eq_zero_iff, List.filter_eq_nil_iff, List.contains_iff_mem, mem_producers]
  constructor
  · rintro h e he rfl
    exact h e.producer he
  · intro h p hp
    exact h _ hp rfl

theorem awaited_erase {edges : List Edge} {waiting : List DeviceRef} {d : DeviceRef} (hn : waiting.Nodup)
    (hd : d ∈ waiting) (x : DeviceRef) :
    awaited edges (waiting.erase d) x =
      if x ∈ consumers edges d then awaited edges waiting x - 1 else awaited edges waiting x := by
  have hsame : (producers edges x).filter (fun p => (waiting.erase d).contains p) =
      ((producers edges x).filter (fun p => waiting.contains p)).erase d := by
    have hp : ((producers edges x).filter (fun p => waiting.contains p)).Nodup := (nodup_eraseDups _).filter _
    rw [hp.erase_eq_filter, List.filter_filter]
    refine List.filter_congr (fun p _ => ?_)
    by_cases hpd : p = d <;> simp [hn.mem_erase_iff, hpd]
  have hfed : d ∈ (producers edges x).filter (fun p => waiting.contains p) ↔ x ∈ consumers edges d := by
    simp [mem_consumers, mem_producers, hd]
  rw [awaited, hsame, List.length_erase]
  simp only [hfed]
  rfl

theorem tells_start {devices : List DeviceRef} {edges : List Edge} (hn : devices.Nodup)
    (hb : ∀ e ∈ edges, e.producer ∈ devices) : (Queue.start devices edges).Tells edges devices := by
  have hall (d : DeviceRef) : awaited edges devices d = (producers edges d).length := by
    rw [awaited, List.filter_eq_self.2 (fun p hp => by simpa using hb _ (mem_producers.1 hp))]
  have hready : (Queue.start devices edges).ready = devices.filter (fun d => (producers edges d).length == 0) := by
    simp only [Queue.start, List.filter_map, List.map_map]
    exact List.map_id' _
  refine ⟨?_, fun d => ?_, ?_⟩
  · rw [hready]
    exact hn.filter _
  · rw [hready, List.mem_filter, hall, beq_iff_eq]
  · simp only [Queue.start, List.filter_map, hall]
    rfl

/-- **Releasing a ready device keeps the queue true.** -/
theorem Queue.Tells.release {edges : List Edge} {waiting : List DeviceRef} {q : Queue} {d : DeviceRef}
    (h : q.Tells edges waiting) (hn : waiting.Nodup) (hd : d ∈ q.ready) :
    (q.release edges d).Tells edges (waiting.erase d) := by
  obtain ⟨hw, hz⟩ := (h.ready d).1 hd
  have hle (x : DeviceRef) : awaited edges (waiting.erase d) x ≤ awaited edges waiting x := by
    rw [awaited_erase hn hw]
    split <;> omega
  -- the counts after the step are those of the devices that still wait
  have hlowered : q.blocked.map (fun b => if (consumers edges d).contains b.1 then (b.1, b.2 - 1) else b) =
      (waiting.filter (fun x => awaited edges waiting x != 0)).map (fun x => (x, awaited edges (waiting.erase d) x)) := by
    rw [h.blocked, List.map_map]
    refine List.map_congr_left (fun x _ => ?_)
    simp only [Function.comp_apply, awaited_erase hn hw, List.contains_iff_mem]
    split <;> rfl
  have hready : (q.release edges d).ready = q.ready.erase d ++
      (waiting.filter (fun x => awaited edges waiting x != 0)).filter (fun x => awaited edges (waiting.erase d) x == 0) := by
    simp only [Queue.release, hlowered, List.filter_map, List.map_map]
    congr 1
    exact List.map_id' _
  refine ⟨?_, fun x => ?_, ?_⟩
  · rw [hready, List.nodup_append]
    refine ⟨h.nodup.erase d, (hn.filter _).filter _, ?_⟩
    rintro x hx _ hx' rfl
    have hx0 := ((h.ready x).1 (List.mem_of_mem_erase hx)).2
    simp [List.mem_filter, hx0] at hx'
  · rw [hready, List.mem_append, h.nodup.mem_erase_iff, h.ready, hn.mem_erase_iff, List.mem_filter, List.mem_filter,
      bne_iff_ne, beq_iff_eq]
    have := hle x
    constructor
    · rintro (⟨hne, hx, hx0⟩ | ⟨⟨hx, hx0⟩, hx1⟩)
      · exact ⟨⟨hne, hx⟩, by omega⟩
      · exact ⟨⟨fun hxd => hx0 (hxd ▸ hz), hx⟩, hx1⟩
    · rintro ⟨⟨hne, hx⟩, hx1⟩
      by_cases hx0 : awaited edges waiting x = 0
      · exact Or.inl ⟨hne, hx, hx0⟩
      · exact Or.inr ⟨⟨hx, hx0⟩, hx1⟩
  · simp only [Queue.release, hlowered, List.filter_map]
    have hkept (p : DeviceRef → Bool) : (waiting.erase d).filter p = waiting.filter (fun x => p x && x != d) := by
      rw [hn.erase_eq_filter, List.filter_filter]
    rw [hkept, List.filter_filter]
    congr 1
    refine List.filter_congr (fun x _ => ?_)
    have := hle x
    rw [Bool.eq_iff_iff]
    simp only [Function.comp_apply, Bool.and_eq_true, bne_iff_ne]
    constructor
    · rintro ⟨hx1, hx0⟩
      exact ⟨hx1, fun hxd => hx0 (hxd ▸ hz)⟩
    · rintro ⟨hx1, _⟩
      exact ⟨hx1, by omega⟩

theorem idxOf_le_of_find? {p : DeviceRef → Bool} {d x : DeviceRef} : ∀ {ds : List DeviceRef},
    ds.find? p = some d → p x = true → ds.idxOf d ≤ ds.idxOf x
  | [], h, _ => by cases h
  | y :: ds, h, hx => by
    by_cases hy : p y = true
    · obtain rfl : y = d := by simpa [List.find?_cons, hy] using h
      simp
    · rw [List.find?_cons_of_neg hy] at h
      have hd : y ≠ d := fun hyd => hy (hyd ▸ List.find?_some h)
      have hyx : y ≠ x := fun hyx => hy (hyx ▸ hx)
      rw [List.idxOf_cons_ne _ hd, List.idxOf_cons_ne _ hyx]
      exact Nat.succ_le_succ (idxOf_le_of_find? h hx)

/-- **Draining a queue places the devices that it tells of.** -/
theorem placing_drain {devices : List DeviceRef} {edges : List Edge} {q : Queue} {waiting : List DeviceRef}
    (hq : q.Tells edges waiting) (hn : waiting.Nodup) (hs : waiting ⊆ devices) :
    Placing devices edges waiting (drain devices edges q) := by
  fun_induction drain devices edges q generalizing waiting with
  | case1 q hnone =>
    refine .stop (fun d hd hz => ?_)
    have := List.find?_eq_none.1 hnone d (hs hd)
    exact this (by simpa using (hq.ready d).2 ⟨hd, hz⟩)
  | case2 q d hsome ih =>
    have hd : d ∈ q.ready := by simpa using List.find?_some hsome
    obtain ⟨hw, hz⟩ := (hq.ready d).1 hd
    refine .next hw hz (fun x hx hx0 => ?_) ?_
    · exact idxOf_le_of_find? hsome (by simpa using (hq.ready x).2 ⟨hx, hx0⟩)
    · exact ih (hq.release hn hd) (hn.erase d) (fun x hx => hs (List.mem_of_mem_erase hx))

namespace Placing

variable {devices waiting order : List DeviceRef} {edges : List Edge}

theorem perm {done : List DeviceRef} (h : Placing devices edges waiting order) (hf : Finished edges done)
    (hs : waiting ⊆ done) : order.Perm waiting := by
  induction h with
  | @stop waiting hnone =>
    by_cases hw : waiting = []
    · rw [hw]
    · obtain ⟨d, hd, hd'⟩ := exists_ready hf hs hw
      exact absurd (awaited_eq_zero_iff.2 hd') (hnone d hd)
  | next mem _ _ _ ih =>
    exact ((ih (fun x hx => hs (List.mem_of_mem_erase hx))).cons _).trans (List.perm_cons_erase mem).symm

/-- **At every step** the next device awaits nothing, and it is the earliest listed one that does not. -/
theorem step (h : Placing devices edges waiting order) : ∀ before d after, order = before ++ d :: after →
    awaited edges (waiting.diff before) d = 0 ∧
      ∀ x ∈ waiting.diff before, awaited edges (waiting.diff before) x = 0 → devices.idxOf d ≤ devices.idxOf x := by
  induction h with
  | stop => intro before d after he; simp at he
  | @next waiting order d mem ready first _ ih =>
    intro before x after he
    cases before with
    | nil =>
      obtain ⟨rfl, rfl⟩ := List.cons.inj he
      exact ⟨ready, first⟩
    | cons y before =>
      simp only [List.cons_append, List.cons.injEq] at he
      obtain ⟨rfl, rfl⟩ := he
      rw [List.diff_cons]
      exact ih before x after rfl

/-- **No order is smaller**, by listing positions, if it places devices only when they await nothing. -/
theorem not_lex {other : List DeviceRef} (h : Placing devices edges waiting order) (hs : waiting ⊆ devices)
    (hp : other.Perm waiting)
    (ho : ∀ before d after, other = before ++ d :: after → awaited edges (waiting.diff before) d = 0) :
    ¬ List.Lex (· < ·) (other.map devices.idxOf) (order.map devices.idxOf) := by
  induction h generalizing other with
  | stop => exact List.not_lex_nil
  | @next waiting order d mem ready first _ ih =>
    cases other with
    | nil => exact absurd (hp.symm.subset mem) List.not_mem_nil
    | cons x other =>
      have hx : x ∈ waiting := hp.subset List.mem_cons_self
      have hle := first x hx (ho [] x other rfl)
      rw [List.map_cons, List.map_cons, List.cons_lex_cons_iff]
      rintro (hlt | ⟨heq, hlex⟩)
      · exact Nat.not_lt.2 hle hlt
      · obtain rfl : x = d := (List.idxOf_inj (hs hx)).1 heq
        refine ih (fun y hy => hs (List.mem_of_mem_erase hy)) ?_ (fun before y after he => ?_) hlex
        · exact (hp.trans (List.perm_cons_erase mem)).cons_inv
        · rw [← List.diff_cons]
          exact ho (x :: before) y after (by rw [he]; rfl)

theorem eq_of_no_edges (h : Placing devices [] waiting order)
    (hw : waiting.Pairwise (fun a b => devices.idxOf a < devices.idxOf b)) : order = waiting := by
  have hz (waiting : List DeviceRef) (d : DeviceRef) : awaited [] waiting d = 0 := by simp [awaited_eq_zero_iff]
  induction h with
  | @stop waiting hnone =>
    cases waiting with
    | nil => rfl
    | cons w _ => exact absurd (hz _ w) (hnone w List.mem_cons_self)
  | @next waiting order d mem _ first _ ih =>
    cases waiting with
    | nil => cases mem
    | cons w ws =>
      have hle := first w List.mem_cons_self (hz _ w)
      rcases List.mem_cons.1 mem with rfl | hd
      · rw [List.erase_cons_head] at ih
        rw [ih hw.of_cons]
      · have := List.rel_of_pairwise_cons hw hd
        omega

end Placing

section Sorted

variable {devices order : List DeviceRef} {edges : List Edge}

/-- **A sort that succeeds places all devices**, and a finishing order of them shows that it does not stop early. -/
theorem placing_of_sort (hn : devices.Nodup) (h : sort devices edges = .ok order) :
    Placing devices (between devices edges) devices order ∧
      ∃ done, Finished (between devices edges) done ∧ devices ⊆ done := by
  unfold sort at h
  dsimp only at h
  split at h
  · cases h
  · rename_i hnone
    obtain rfl := Except.ok.inj h
    refine ⟨placing_drain (tells_start hn ?_) hn (fun _ hx => hx), finished_of_cycle?_eq_none ?_ hnone⟩
    · exact fun e he => (mem_between.1 he).2.1
    · exact fun e he => (mem_between.1 he).2.2

theorem perm_of_sort (hn : devices.Nodup) (h : sort devices edges = .ok order) : order.Perm devices := by
  obtain ⟨hp, done, hf, hs⟩ := placing_of_sort hn h
  exact hp.perm hf hs

theorem awaited_diff_eq_zero_iff (hn : devices.Nodup) {before : List DeviceRef} {d : DeviceRef} :
    awaited (between devices edges) (devices.diff before) d = 0 ↔ Supplied (between devices edges) before d := by
  rw [awaited_eq_zero_iff]
  refine forall₂_congr (fun e he => imp_congr_right (fun _ => ?_))
  rw [hn.mem_sdiff_iff]
  simp [(mem_between.1 he).2.1]

/-- **In a sorted list every producer comes before its consumers.** -/
theorem respects_of_sort (hn : devices.Nodup) (h : sort devices edges = .ok order) :
    Respects (between devices edges) order := by
  intro before d after he
  exact (awaited_diff_eq_zero_iff hn).1 ((placing_of_sort hn h).1.step before d after he).1

theorem cycle?_nil (devices : List DeviceRef) : cycle? devices [] = none := by
  have hsearch (n : Nat) (done : List DeviceRef) (d : DeviceRef) : ∃ done', search [] (n + 1) [] done d = .ok done' := by
    by_cases hd : d ∈ done <;> simp [search, consumers, hd, pure, Except.pure]
  have hfold (n : Nat) (ds : List DeviceRef) :
      ∀ done, ∃ done', ds.foldlM (fun done d => search [] (n + 1) [] done d) done = .ok done' := by
    induction ds with
    | nil => exact fun done => ⟨done, rfl⟩
    | cons d ds ih =>
      intro done
      obtain ⟨mid, hmid⟩ := hsearch n done d
      simpa [hmid, bind, Except.bind] using ih mid
  obtain ⟨done, hdone⟩ := hfold devices.length devices []
  simp only [cycle?, hdone]

theorem sort_of_no_edges (hn : devices.Nodup) (h : between devices edges = []) : sort devices edges = .ok devices := by
  have hlisted : devices.Pairwise (fun a b => devices.idxOf a < devices.idxOf b) := by
    rw [List.pairwise_iff_getElem]
    intro i j hi hj hij
    rwa [hn.idxOf_getElem, hn.idxOf_getElem]
  have ht : (Queue.start devices []).Tells [] devices := tells_start hn (by simp)
  have hp := placing_drain ht hn (fun _ hx => hx)
  simp only [sort, h, cycle?_nil]
  rw [hp.eq_of_no_edges hlisted]

end Sorted

end Order

theorem Requirement.sort_eq_ok {requirements : List Requirement} {devices order : List DeviceRef}
    (h : Requirement.sort requirements devices = .ok order) :
    Order.sort devices (requirements.flatMap Requirement.edges) = .ok order := by
  unfold Requirement.sort at h
  cases hs : Order.sort devices (requirements.flatMap Requirement.edges) with
  | error c => simp [hs, Except.mapError] at h
  | ok o => simpa [hs, Except.mapError] using h

/-- **The least order that requirements allow.**  An order that is found lists every device once and every producer before
its consumers; the device at every step is the earliest listed one, of those not placed, whose producers are placed; and
compared by listing positions no other such order comes before it.  Devices that do not feed each other stay as listed. -/
theorem sort_eq_least_order (requirements : List Requirement) {devices : List DeviceRef} (hn : devices.Nodup) :
    let edges := Order.between devices (requirements.flatMap Requirement.edges)
    (∀ order, Requirement.sort requirements devices = .ok order →
      order.Perm devices ∧ Order.Respects edges order ∧
      (∀ before d after, order = before ++ d :: after → ∀ x ∈ devices, x ∉ before → Order.Supplied edges before x →
        devices.idxOf d ≤ devices.idxOf x) ∧
      ∀ other : List DeviceRef, other.Perm devices → Order.Respects edges other →
        ¬ List.Lex (· < ·) (other.map devices.idxOf) (order.map devices.idxOf)) ∧
    (edges = [] → Requirement.sort requirements devices = .ok devices) := by
  refine ⟨fun order h => ?_, fun h => ?_⟩
  · replace h := Requirement.sort_eq_ok h
    have hp := (Order.placing_of_sort hn h).1
    refine ⟨Order.perm_of_sort hn h, Order.respects_of_sort hn h, fun before d after he x hx hxb hsup => ?_, ?_⟩
    · exact (hp.step before d after he).2 x (hn.mem_sdiff_iff.2 ⟨hx, hxb⟩) ((Order.awaited_diff_eq_zero_iff hn).2 hsup)
    · intro other hperm hresp
      exact hp.not_lex (fun _ hx => hx) hperm (fun before d after he =>
        (Order.awaited_diff_eq_zero_iff hn).2 (hresp before d after he))
  · simp only [Requirement.sort, Order.sort_of_no_edges hn h, Except.mapError]

/-- An array on a volume group: stated twice, and with a producer that is not listed. -/
theorem sort_eq_least_order_of_array_on_group :
    let disk : DeviceRef := ⟨"disk", "a"⟩
    let array : DeviceRef := ⟨"mdadm", "md"⟩
    let group : DeviceRef := ⟨"lvm_vg", "vg"⟩
    let devices := [disk, array, group]
    let requirements : List Requirement := [⟨array, [group, group, ⟨"disk", "gone"⟩]⟩, ⟨group, [disk]⟩]
    devices.Nodup ∧ Requirement.sort requirements devices = .ok [disk, group, array] ∧
      ∀ other : List DeviceRef, other.Perm devices →
        Order.Respects (Order.between devices (requirements.flatMap Requirement.edges)) other →
        ¬ List.Lex (· < ·) (other.map devices.idxOf) [0, 2, 1] := by
  intro disk array group devices requirements
  have hn : devices.Nodup := by decide
  have hs : Requirement.sort requirements devices = .ok [disk, group, array] := eq_ok_of_toOption (by decide +kernel)
  exact ⟨hn, hs, ((sort_eq_least_order requirements hn).1 _ hs).2.2.2⟩

end Provision
