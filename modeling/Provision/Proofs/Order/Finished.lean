import Mathlib.Data.List.Basic
import Mathlib.Data.List.Perm.Subperm
import Provision.Device.Order
/-!
# What a search that meets no loop leaves behind

`search` leaves a device only after everything that it feeds, so the devices that it has left, the last first, list every
device before its consumers (`Finished`).  A path never repeats a device, so the fuel of `cycle?` never runs out, and a
search of all devices without a loop leaves all of them finished (`finished_of_cycle?_eq_none`).
-/
namespace Provision
namespace Order

/-- Devices in the reverse of the order in which a search left them: whatever a device feeds comes after it. -/
inductive Finished (edges : List Edge) : List DeviceRef → Prop
  | nil : Finished edges []
  | cons {d : DeviceRef} {done : List DeviceRef} (fresh : d ∉ done) (fed : ∀ c ∈ consumers edges d, c ∈ done)
      (rest : Finished edges done) : Finished edges (d :: done)

/-- What a search with a path behind it makes of the devices that are done: none is lost, and none of those it adds is on
the path. -/
structure Extends (edges : List Edge) (path done done' : List DeviceRef) : Prop where
  finished : Finished edges done'
  keeps : done ⊆ done'
  fresh : ∀ d ∈ done', d ∈ done ∨ d ∉ path

theorem mem_consumers {edges : List Edge} {d c : DeviceRef} : c ∈ consumers edges d ↔ ⟨d, c⟩ ∈ edges := by
  simp only [consumers, List.mem_eraseDups, List.mem_map, List.mem_filter, beq_iff_eq]
  constructor
  · rintro ⟨e, ⟨he, rfl⟩, rfl⟩
    exact he
  · intro h
    exact ⟨_, ⟨h, rfl⟩, rfl⟩

theorem Finished.fed {edges : List Edge} {done : List DeviceRef} (h : Finished edges done) {d c : DeviceRef}
    (hd : d ∈ done) (hc : c ∈ consumers edges d) : c ∈ done := by
  induction h with
  | nil => cases hd
  | cons fresh fed _ ih =>
    rcases List.mem_cons.1 hd with rfl | hd
    · exact List.mem_cons_of_mem _ (fed c hc)
    · exact List.mem_cons_of_mem _ (ih hd)

theorem Extends.refl {edges : List Edge} {path done : List DeviceRef} (h : Finished edges done) :
    Extends edges path done done :=
  ⟨h, fun _ hd => hd, fun _ hd => Or.inl hd⟩

theorem Extends.trans {edges : List Edge} {path done done' done'' : List DeviceRef}
    (h : Extends edges path done done') (h' : Extends edges path done' done'') : Extends edges path done done'' :=
  ⟨h'.finished, fun _ hd => h'.keeps (h.keeps hd), fun d hd => (h'.fresh d hd).elim (h.fresh d) Or.inr⟩

theorem foldlM_extends {edges : List Edge} {path : List DeviceRef}
    {visit : List DeviceRef → DeviceRef → Except (List DeviceRef) (List DeviceRef)} :
    ∀ (ds : List DeviceRef) (done done' : List DeviceRef),
      (∀ d ∈ ds, ∀ a b, Finished edges a → visit a d = .ok b → Extends edges path a b ∧ d ∈ b) →
      Finished edges done → ds.foldlM visit done = .ok done' → Extends edges path done done' ∧ ds ⊆ done'
  | [], done, done', _, hf, h => by
    obtain rfl : done = done' := by simpa [pure, Except.pure] using h
    exact ⟨.refl hf, List.nil_subset _⟩
  | d :: ds, done, done', hv, hf, h => by
    cases hd : visit done d with
    | error c => simp [hd, bind, Except.bind] at h
    | ok mid =>
      simp only [List.foldlM_cons, hd, bind, Except.bind] at h
      obtain ⟨hmid, hdm⟩ := hv d List.mem_cons_self done mid hf hd
      obtain ⟨hend, hds⟩ := foldlM_extends ds mid done' (fun e he => hv e (List.mem_cons_of_mem _ he)) hmid.finished h
      exact ⟨hmid.trans hend, List.cons_subset.2 ⟨hend.keeps hdm, hds⟩⟩

/-- **A search that meets no loop finishes its device.**  The devices of the path are listed and differ, so the path and
the fuel together stay as long as the list of all devices and one more. -/
theorem search_extends {devices : List DeviceRef} {edges : List Edge} (hb : ∀ e ∈ edges, e.consumer ∈ devices) :
    ∀ (fuel : Nat) (path done : List DeviceRef) (d : DeviceRef) (done' : List DeviceRef),
      path.Nodup → path ⊆ devices → d ∈ devices → fuel + path.length = devices.length + 1 →
      Finished edges done → search edges fuel path done d = .ok done' → Extends edges path done done' ∧ d ∈ done'
  | 0, path, _, _, _, hn, hs, _, hl, _, _ => by
    have := (List.subperm_of_subset hn hs).length_le
    omega
  | fuel + 1, path, done, d, done', hn, hs, hd, hl, hf, h => by
    unfold search at h
    split at h
    · cases h
    rename_i hp
    have hp : d ∉ path := by simpa using hp
    split at h
    · rename_i hdone
      cases h
      exact ⟨.refl hf, by simpa using hdone⟩
    rename_i hdone
    have hdone : d ∉ done := by simpa using hdone
    cases hc : (consumers edges d).foldlM (fun done c => search edges fuel (d :: path) done c) done with
    | error c => simp [hc] at h
    | ok below =>
      obtain rfl : d :: below = done' := by simpa [hc] using h
      have hbelow := foldlM_extends (consumers edges d) done below (fun c hcd a b ha hab =>
        search_extends hb fuel (d :: path) a c b (List.nodup_cons.2 ⟨hp, hn⟩) (List.cons_subset.2 ⟨hd, hs⟩)
          (hb _ (mem_consumers.1 hcd)) (by simp; omega) ha hab) hf hc
      obtain ⟨hext, hfed⟩ := hbelow
      have hfresh : d ∉ below := fun hm => (hext.fresh d hm).elim hdone (fun hnot => hnot List.mem_cons_self)
      refine ⟨⟨.cons hfresh (fun c hcd => hfed hcd) hext.finished, fun x hx => List.mem_cons_of_mem _ (hext.keeps hx), ?_⟩,
        List.mem_cons_self⟩
      intro x hx
      rcases List.mem_cons.1 hx with rfl | hx
      · exact Or.inr hp
      · exact (hext.fresh x hx).imp_right (fun hnot hxp => hnot (List.mem_cons_of_mem _ hxp))

/-- **Where no loop is met, all devices have a finishing order.** -/
theorem finished_of_cycle?_eq_none {devices : List DeviceRef} {edges : List Edge}
    (hb : ∀ e ∈ edges, e.consumer ∈ devices) (h : cycle? devices edges = none) :
    ∃ done, Finished edges done ∧ devices ⊆ done := by
  unfold cycle? at h
  split at h
  · cases h
  rename_i done hdone
  obtain ⟨hext, hsub⟩ := foldlM_extends devices [] done (fun d hd a b ha hab =>
    search_extends hb _ [] a d b List.nodup_nil (List.nil_subset _) hd (by simp) ha hab) .nil hdone
  exact ⟨done, hext.finished, hsub⟩

/-- **Among devices that wait there is one for which no producer waits**: the first of them in a finishing order. -/
theorem exists_ready {edges : List Edge} {done waiting : List DeviceRef} (h : Finished edges done)
    (hs : waiting ⊆ done) (hw : waiting ≠ []) : ∃ d ∈ waiting, ∀ e ∈ edges, e.consumer = d → e.producer ∉ waiting := by
  induction h with
  | nil => exact absurd (List.subset_nil.1 hs) hw
  | @cons d done hfresh hfed hrest ih =>
    by_cases hd : d ∈ waiting
    · refine ⟨d, hd, fun e he hc hp => ?_⟩
      -- a producer has its consumer after it, and nothing comes before the first device
      have hcons : d ∈ consumers edges e.producer := mem_consumers.2 (hc ▸ he)
      rcases List.mem_cons.1 (hs hp) with hpd | hpd
      · exact hfresh (hfed d (hpd ▸ hcons))
      · exact hfresh (hrest.fed hpd hcons)
    · exact ih (fun x hx => (List.mem_cons.1 (hs hx)).resolve_left (fun hxd => hd (hxd ▸ hx)))

end Order
end Provision
