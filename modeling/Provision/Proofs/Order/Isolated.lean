import Provision.Proofs.Order.Placement
/-!
# Devices without edges

A device that neither feeds another nor is fed is ready from the start, and placing it makes no other device ready.  So it
is only in the way of the others: without it they are placed in the same order (`Placing.erase`), whatever its place among
the listed devices (`sort_insert`).
-/
namespace Provision
namespace Order

def Isolated (edges : List Edge) (x : DeviceRef) : Prop := ∀ e ∈ edges, e.producer ≠ x ∧ e.consumer ≠ x

theorem idxOf_insert_le_iff {before after : List DeviceRef} {x d y : DeviceRef} (hd : d ≠ x) (hy : y ≠ x) :
    (before ++ x :: after).idxOf d ≤ (before ++ x :: after).idxOf y ↔
    (before ++ after).idxOf d ≤ (before ++ after).idxOf y := by
  have hbefore (r : DeviceRef) (hr : r ∈ before) : before.idxOf r < before.length := List.idxOf_lt_length_of_mem hr
  rw [List.idxOf_append, List.idxOf_append, List.idxOf_append, List.idxOf_append, List.idxOf_cons_ne _ hd.symm,
    List.idxOf_cons_ne _ hy.symm]
  split <;> split
  · rfl
  · have := hbefore d ‹_›
    omega
  · have := hbefore y ‹_›
    omega
  · omega

namespace Placing

variable {devices devices' waiting order order' : List DeviceRef} {edges : List Edge} {x : DeviceRef}

theorem subset (h : Placing devices edges waiting order) : order ⊆ waiting := by
  induction h with
  | stop => exact List.nil_subset _
  | next mem _ _ _ ih => exact List.cons_subset.2 ⟨mem, fun _ hy => List.mem_of_mem_erase (ih hy)⟩

/-- **A placing is determined** by the devices that wait. -/
theorem unique (h : Placing devices edges waiting order) (h' : Placing devices edges waiting order')
    (hs : waiting ⊆ devices) :
    order = order' := by
  induction h generalizing order' with
  | stop none =>
    cases h' with
    | stop => rfl
    | next mem ready => exact absurd ready (none _ mem)
  | @next waiting order d mem ready first _ ih =>
    cases h' with
    | stop none => exact absurd ready (none _ mem)
    | @next _ order' d' mem' ready' first' rest' =>
      obtain rfl : d = d' := (List.idxOf_inj (hs mem)).1 (Nat.le_antisymm (first d' mem' ready') (first' d mem ready))
      rw [ih rest' fun y hy => hs (List.mem_of_mem_erase hy)]

/-- **Without a device on no edge**, the others are placed in the same order. -/
theorem erase (h : Placing devices' edges waiting order) (hx : Isolated edges x) (hn : waiting.Nodup)
    (hlisted : ∀ d y : DeviceRef, d ≠ x → y ≠ x → devices'.idxOf d ≤ devices'.idxOf y → devices.idxOf d ≤ devices.idxOf y) :
    Placing devices edges (waiting.erase x) (order.erase x) := by
  -- a device that waits without `x` waits for the same producers with it
  have hzero (waiting : List DeviceRef) (hn : waiting.Nodup) (d : DeviceRef) :
      awaited edges (waiting.erase x) d = 0 ↔ awaited edges waiting d = 0 := by
    rw [awaited_eq_zero_iff, awaited_eq_zero_iff]
    refine forall₂_congr fun e he => imp_congr_right fun _ => ?_
    rw [hn.mem_erase_iff, and_iff_right (hx e he).1]
  induction h with
  | @stop waiting none =>
    have hfree : awaited edges waiting x = 0 := awaited_eq_zero_iff.2 fun e he hc => absurd hc (hx e he).2
    rw [List.erase_of_not_mem fun hmem => none x hmem hfree]
    exact .stop none
  | @next waiting order d mem ready first rest ih =>
    have ih := ih (hn.erase d)
    by_cases hd : d = x
    · subst hd
      have hgone : d ∉ waiting.erase d := hn.not_mem_erase
      rw [List.erase_of_not_mem hgone, List.erase_of_not_mem fun hmem => hgone (rest.subset hmem)] at ih
      rwa [List.erase_cons_head]
    · rw [List.erase_cons_tail (by simpa using hd)]
      refine .next ((List.mem_erase_of_ne hd).2 mem) ((hzero waiting hn d).2 ready) (fun y hy hy0 => ?_) ?_
      · obtain ⟨hyx, hy⟩ := hn.mem_erase_iff.1 hy
        exact hlisted d y hd hyx (first y hy ((hzero waiting hn y).1 hy0))
      · rwa [List.erase_comm]

end Placing

/-- **A device on no edge leaves the order of the others as it is**, wherever it is listed. -/
theorem sort_insert {before after order order' : List DeviceRef} {x : DeviceRef} {edges : List Edge}
    (hn : (before ++ x :: after).Nodup) (hx : Isolated edges x) (h : sort (before ++ after) edges = .ok order)
    (h' : sort (before ++ x :: after) edges = .ok order') : order'.erase x = order := by
  have hnew : x ∉ before ++ after := fun hmem => (List.nodup_middle.1 hn).notMem hmem
  have hn₀ : (before ++ after).Nodup := (List.nodup_middle.1 hn).of_cons
  have herase : (before ++ x :: after).erase x = before ++ after := by
    rw [List.erase_append_right _ fun hmem => hnew (List.mem_append_left _ hmem), List.erase_cons_head]
  have hbetween : between (before ++ x :: after) edges = between (before ++ after) edges := by
    refine List.filter_congr fun e he => ?_
    obtain ⟨hp, hc⟩ := hx e he
    simp [hp, hc]
  have hplacing := (placing_of_sort hn h').1
  rw [hbetween] at hplacing
  have hothers := hplacing.erase (fun e he => hx e (mem_between.1 he).1) hn fun d y hd hy => (idxOf_insert_le_iff hd hy).1
  rw [herase] at hothers
  exact hothers.unique (placing_of_sort hn₀ h).1 (List.Subset.refl _)

end Order
end Provision
