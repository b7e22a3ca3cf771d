import Mathlib.Data.List.Induction
import Provision.Host.Table
import Provision.Proofs.Metadata
import Provision.Proofs.Mount.Facts
import Provision.Proofs.Order.Placement
/-!
# Two tables of mounts

The mount script and the host configuration both keep, at every mountpoint, the last filesystem that was entered there.  But
the script enters devices in the order in which they are made, the configuration in the order in which they are declared; and
the script enters swap devices in the same table, by their paths.  So a filesystem that the script mounts is always in the
configuration, but the two give a mountpoint the same device exactly where the last devices in both orders agree on it
(`mounted_eq_configured_iff`).
-/
namespace Provision

open Value (Entries entry node)

namespace ByPath

variable {μ α : Type}

def enters (es : List (String × μ)) (path : String) : Bool := es.any (fun e => e.1 == path)

theorem enters_iff {es : List (String × μ)} {path : String} : enters es path = true ↔ ∃ m, (path, m) ∈ es := by
  rw [enters, List.any_eq_true]
  constructor
  · rintro ⟨⟨p, m⟩, he, hp⟩
    exact ⟨m, by simpa using (beq_iff_eq.1 hp) ▸ he⟩
  · exact fun ⟨m, he⟩ => ⟨_, he, beq_self_eq_true path⟩

theorem lastAt?_isSome {es : List (String × μ)} {path : String} : (lastAt? es path).isSome = enters es path := by
  rw [Bool.eq_iff_iff, enters_iff, Option.isSome_iff_ne_none, ne_eq, lastAt?_eq_none_iff, not_not, List.mem_map]
  constructor
  · rintro ⟨e, he, rfl⟩
    exact ⟨e.2, he⟩
  · exact fun ⟨m, he⟩ => ⟨_, he, rfl⟩

/-- What was entered last at a path, part by part: the last part that enters something there decides. -/
theorem lastAt?_flatMap (g : α → List (String × μ)) (path : String) (xs : List α) :
    lastAt? (xs.flatMap g) path =
      ((xs.filter (fun x => enters (g x) path)).getLast?).bind (fun x => lastAt? (g x) path) := by
  induction xs using List.reverseRecOn with
  | nil => rfl
  | append_singleton xs x ih =>
    rw [List.flatMap_append, List.flatMap_singleton, lastAt?_append, List.filter_append, List.filter_singleton]
    cases hx : enters (g x) path with
    | true =>
      obtain ⟨m, hm⟩ := Option.isSome_iff_exists.1 (lastAt?_isSome.trans hx)
      simp [hm]
    | false =>
      have hnone : lastAt? (g x) path = none := by simpa [← lastAt?_isSome] using hx
      simp [hnone, ih]

end ByPath

theorem exists_getLast?_filter_iff {α : Type} {p : α → Bool} {xs : List α} :
    (∃ x, (xs.filter p).getLast? = some x) ↔ ∃ x ∈ xs, p x = true := by
  constructor
  · rintro ⟨x, hx⟩
    exact ⟨x, List.mem_filter.1 (List.mem_of_getLast? hx)⟩
  · rintro ⟨x, hx, hp⟩
    exact Option.isSome_iff_exists.1 (List.getLast?_isSome.2 (List.ne_nil_of_mem (List.mem_filter.2 ⟨hx, hp⟩)))

namespace HostConfig

def deviceAt? (c : HostConfig) (mountpoint : String) : Option Value :=
  (Entries.get? c.fileSystems (.text mountpoint)).map (·.device)

theorem get?_put_text {α : Type} (es : List (Value × α)) (k : Value) (v : α) (s : String) :
    Entries.get? (Entries.put es k v) (.text s) =
      if Value.same (.text s) k then some v else Entries.get? es (.text s) := by
  induction es with
  | nil => cases hs : Value.same (.text s) k <;> simp [Entries.put, Entries.get?, hs]
  | cons e es ih =>
    by_cases hk : Value.same k e.1 = true
    · -- a text is only the same as itself
      have hkey : Value.same (.text s) k = Value.same (.text s) e.1 := by
        rw [Bool.eq_iff_iff, Value.same_text_iff, Value.same_text_iff]
        constructor <;> intro hs <;> rw [hs] at hk
        · exact Value.same_text_iff.1 hk
        · exact Value.same_eq_text_iff.1 hk
      cases hs : Value.same (.text s) e.1 <;> simp [Entries.put, Entries.get?, hk, hkey, hs]
    · cases hs : Value.same (.text s) e.1 with
      | true =>
        have hsk : Value.same (.text s) k = false := by
          rw [Bool.eq_false_iff]
          intro hsk
          rw [Value.same_text_iff] at hs hsk
          exact hk (by rw [hs, hsk, Value.same_text_iff])
        simp [Entries.put, Entries.get?, hk, hs, hsk]
      | false =>
        have hput : Entries.get? (Entries.put (e :: es) k v) (.text s) = Entries.get? (Entries.put es k v) (.text s) := by
          simp [Entries.put, Entries.get?, hk, hs]
        rw [hput, ih]
        simp [Entries.get?, hs]

theorem deviceAt?_add {c c' : HostConfig} {fact : Fact} (h : c.add fact = .ok c') (m : String) :
    c'.deviceAt? m = (ByPath.lastAt? fact.mounted?.toList m).or (c.deviceAt? m) := by
  unfold add at h
  split at h
  case h_1 mountpoint device fsType options =>
    split at h
    · cases h
      rw [deviceAt?, get?_put_text]
      by_cases hm : mountpoint = .text m
      · subst hm
        simp [Value.same_text_iff, Fact.mounted?, ByPath.lastAt?, ByPath.get?]
      · have hsame : Value.same (.text m) mountpoint = false := by
          simpa [Bool.eq_false_iff, Value.same_text_iff] using hm
        have hnone : ByPath.lastAt? (Fact.filesystem mountpoint device fsType options).mounted?.toList m = none := by
          cases mountpoint
          case text s => simpa [Fact.mounted?, ByPath.lastAt?, ByPath.get?] using hm
          all_goals rfl
        rw [hsame, hnone]
        rfl
    · cases h
  case h_3 =>
    split at h <;> cases h
    rfl
  case h_4 =>
    split at h <;> cases h <;> rfl
  · cases h
    rfl

/-- **The filesystems of facts**: at every mountpoint the last that was entered there. -/
theorem deviceAt?_foldlM {m : String} : ∀ {facts : List Fact} {c c' : HostConfig}, facts.foldlM add c = .ok c' →
    c'.deviceAt? m = (ByPath.lastAt? (facts.filterMap Fact.mounted?) m).or (c.deviceAt? m)
  | [], c, c', h => by
    obtain rfl : c = c' := Except.ok.inj h
    rfl
  | fact :: facts, c, c', h => by
    rw [List.foldlM_cons] at h
    obtain ⟨d, hd, h⟩ := except_bind_eq_ok_iff.1 h
    have hsplit : (fact :: facts).filterMap Fact.mounted? = fact.mounted?.toList ++ facts.filterMap Fact.mounted? := by
      cases hf : fact.mounted? <;> simp [hf]
    rw [deviceAt?_foldlM h, deviceAt?_add hd, hsplit, ByPath.lastAt?_append, Option.or_assoc]

theorem deviceAt?_ofFacts {facts : List Fact} {c : HostConfig} (h : ofFacts facts = .ok c) (m : String) :
    c.deviceAt? m = ByPath.lastAt? (facts.filterMap Fact.mounted?) m := by
  rw [deviceAt?_foldlM h, show deviceAt? {} m = none from rfl, Option.or_none]

/-- Whether a fact can be added depends only on its key: a filesystem's mountpoint, a container's name. -/
theorem exists_add_iff {c : HostConfig} {fact : Fact} : (∃ c', c.add fact = .ok c') ↔
    (∀ m device fsType options, fact = .filesystem m device fsType options → m.isKey = true) ∧
      ∀ name device keyFile, fact = .unlock name device keyFile → name.isKey = true := by
  cases fact with
  | filesystem m =>
    cases hm : m.isKey
    · simp [add, hm]
    · simp only [add, hm, if_true, Except.ok.injEq, exists_eq', true_iff, Fact.filesystem.injEq]
      exact ⟨fun _ _ _ _ e => e.1 ▸ hm, fun _ _ _ e => by cases e⟩
  | swap => simp [add]
  | unlock name =>
    cases hn : name.isKey
    · simp [add, hn]
    · simp only [add, hn, if_true, Except.ok.injEq, exists_eq', true_iff, Fact.unlock.injEq]
      exact ⟨fun _ _ _ _ e => (by cases e), fun _ _ _ e => e.1 ▸ hn⟩
  | kernelModule module => simp only [add]; split <;> simp

theorem exists_foldlM_iff : ∀ {facts : List Fact} {c : HostConfig}, (∃ c', facts.foldlM add c = .ok c') ↔
    (∀ m device fsType options, Fact.filesystem m device fsType options ∈ facts → m.isKey = true) ∧
      ∀ name device keyFile, Fact.unlock name device keyFile ∈ facts → name.isKey = true
  | [], c => by simp [pure, Except.pure]
  | fact :: facts, c => by
    rw [List.foldlM_cons]
    constructor
    · rintro ⟨c', h⟩
      obtain ⟨d, hd, h⟩ := except_bind_eq_ok_iff.1 h
      obtain ⟨hfirst, hfirst'⟩ := exists_add_iff.1 ⟨d, hd⟩
      obtain ⟨hrest, hrest'⟩ := exists_foldlM_iff.1 ⟨c', h⟩
      refine ⟨fun m device fsType options hm => ?_, fun name device keyFile hn => ?_⟩
      · exact (List.mem_cons.1 hm).elim (fun e => hfirst m device fsType options e.symm) (hrest m device fsType options)
      · exact (List.mem_cons.1 hn).elim (fun e => hfirst' name device keyFile e.symm) (hrest' name device keyFile)
    · rintro ⟨hm, hn⟩
      obtain ⟨d, hd⟩ : ∃ d, c.add fact = .ok d := exists_add_iff.2
        ⟨fun m device fsType options e => hm m device fsType options (e ▸ List.mem_cons_self),
          fun name device keyFile e => hn name device keyFile (e ▸ List.mem_cons_self)⟩
      obtain ⟨c', hc'⟩ : ∃ c', facts.foldlM add d = .ok c' := exists_foldlM_iff.2
        ⟨fun m device fsType options h => hm m device fsType options (List.mem_cons_of_mem _ h),
          fun name device keyFile h => hn name device keyFile (List.mem_cons_of_mem _ h)⟩
      exact ⟨c', except_bind_eq_ok_iff.2 ⟨d, hd, hc'⟩⟩

theorem fileSystemLine_eq_ok {e : Value × FileSystem} {line : String} (h : fileSystemLine e = .ok line) :
    ∃ rest, line = tableLine (e.2.device.toText :: e.1.toText :: rest) := by
  obtain ⟨options, -, h⟩ := except_bind_eq_ok_iff.1 h
  obtain ⟨_, -, h⟩ := except_bind_eq_ok_iff.1 h
  obtain ⟨pass, -, h⟩ := except_bind_eq_ok_iff.1 h
  exact ⟨_, (Except.ok.inj h).symm⟩

theorem renderSwap_eq_ok_iff {s : SwapDevice} {line : String} :
    (renderSwap s).outcome = .ok line ↔ s.device.isWritable = true ∧ line = swapLine s := by
  have hwarned : (renderSwap s).outcome = (fun _ => swapLine s) <$> Value.requireWritable [s.device] := by
    rw [renderSwap, Traced.outcome_bind, Traced.outcome_liftM]
    cases Value.requireWritable [s.device] with
    | error f => rfl
    | ok => cases s.randomEncryption.isGiven <;> rfl
  rw [hwarned, except_map_eq_ok_iff]
  constructor
  · rintro ⟨_, h, rfl⟩
    exact ⟨Value.requireWritable_eq_ok_iff.1 h _ List.mem_cons_self, rfl⟩
  · rintro ⟨h, rfl⟩
    exact ⟨(), Value.requireWritable_eq_ok_iff.2 (by simpa using h), rfl⟩

theorem fstab_lines {c : HostConfig} {text : String} (h : c.fstab.outcome = .ok text) :
    ∃ es lines, c.sortedFileSystems = .ok es ∧ List.Forall₂ (fun e line => fileSystemLine e = .ok line) es lines ∧
      (∀ s ∈ c.swapDevices, s.device.isWritable = true) ∧
      text = fstabHeader ++ String.join lines ++ String.join (c.swapDevices.map swapLine) := by
  unfold fstab at h
  obtain ⟨es, hes, h⟩ := Traced.outcome_bind_eq_ok_iff.1 h
  obtain ⟨lines, hlines, h⟩ := Traced.outcome_bind_eq_ok_iff.1 h
  obtain ⟨swaps, hswaps, h⟩ := Traced.outcome_bind_eq_ok_iff.1 h
  obtain rfl := Except.ok.inj h
  rw [Traced.outcome_liftM] at hes hlines
  have hswaps := Traced.outcome_mapM_eq_ok_iff.1 hswaps
  refine ⟨es, lines, hes, except_mapM_eq_ok_iff.1 hlines, fun s hs => ?_, ?_⟩
  · obtain ⟨line, -, hline⟩ := exists_right_of_forall₂ hswaps hs
    exact (renderSwap_eq_ok_iff.1 hline).1
  have hsame := hswaps.imp fun s line hs => (renderSwap_eq_ok_iff.1 hs).2.symm
  rw [← List.forall₂_map_left_iff, List.forall₂_eq_eq_eq] at hsame
  rw [hsame]

/-- **The rendered table of filesystems**: a line for every filesystem of the configuration, with its device and its
mountpoint, and a line for every swap device. -/
theorem fstab_ok {c : HostConfig} {text : String} (h : c.fstab.outcome = .ok text) :
    ∃ es lines, es.Perm c.fileSystems ∧
      List.Forall₂ (fun e line => ∃ rest, line = tableLine (e.2.device.toText :: e.1.toText :: rest)) es lines ∧
      text = fstabHeader ++ String.join lines ++ String.join (c.swapDevices.map swapLine) := by
  obtain ⟨es, lines, hes, hlines, -, htext⟩ := fstab_lines h
  refine ⟨es, lines, ?_, hlines.imp (fun e line => fileSystemLine_eq_ok), htext⟩
  unfold sortedFileSystems at hes
  split at hes
  · cases hes
    exact List.mergeSort_perm _ _
  · cases hes

end HostConfig

theorem Spec.keys_of_mounting {spec : Spec} {ctx : Context} {path root m : String} {source fsType : Value}
    {options : List String} (h : spec.mounting ctx = .ok (some (path, .filesystem source root m options fsType))) :
    root = ctx.root ∧ m = path := by
  cases spec
  case filesystem | nodev =>
    cases h
    exact ⟨rfl, rfl⟩
  case subvolume =>
    obtain ⟨m, -, h⟩ := except_bind_eq_ok_iff.1 h
    obtain ⟨m, -, h⟩ := Option.map_eq_some_iff.1 (Except.ok.inj h)
    cases h
    exact ⟨rfl, rfl⟩
  case btrfs | pool | dataset =>
    obtain ⟨m, -, h⟩ := Option.map_eq_some_iff.1 (Except.ok.inj h)
    cases h
    exact ⟨rfl, rfl⟩
  case swap =>
    obtain ⟨device, -, h⟩ := except_bind_eq_ok_iff.1 h
    cases h
  all_goals cases h

namespace Device

def enters (d : Device) (root path : String) : Bool := ByPath.enters (d.mountings root) path

def mounts (d : Device) (root path : String) : Bool := ByPath.enters (d.mounted root) path

theorem mem_mounted_iff {d : Device} {root path : String} {source : Value} :
    (path, source) ∈ d.mounted root ↔ ∃ m, (path, m) ∈ d.mountings root ∧ m.source? = some source := by
  rw [mounted_eq, List.mem_filterMap]
  constructor
  · rintro ⟨⟨p, m⟩, he, hs⟩
    obtain ⟨s, hsource, heq⟩ := Option.map_eq_some_iff.1 hs
    obtain ⟨rfl, rfl⟩ := Prod.mk.inj heq
    exact ⟨m, he, hsource⟩
  · rintro ⟨m, he, hs⟩
    exact ⟨_, he, by simp [hs]⟩

theorem enters_of_mounts {d : Device} {root path : String} (h : d.mounts root path = true) : d.enters root path = true := by
  obtain ⟨source, hs⟩ := ByPath.enters_iff.1 h
  obtain ⟨m, hm, -⟩ := mem_mounted_iff.1 hs
  exact ByPath.enters_iff.2 ⟨m, hm⟩

end Device

/-- **Devices in two orders.**  What is mounted at a path, where swap devices have entries too, and what is configured there:
the two agree where the last devices that enter something agree on the filesystem; without one, only the configuration can
have an entry, and then a swap device stands in its place. -/
theorem mounted_eq_configured_of_perm {ds es : List Device} (hperm : ds.Perm es) (root m : String) :
    let mounted := (ByPath.lastAt? (ds.flatMap (·.mountings root)) m).bind Mounting.source?
    let configured := ByPath.lastAt? (es.flatMap (·.mounted root)) m
    (mounted.isSome → configured.isSome) ∧
    (configured.isSome →
      mounted.isSome ∨ ∃ device, ByPath.lastAt? (ds.flatMap (·.mountings root)) m = some (.swap device)) ∧
    (mounted = configured ↔ ∀ P Q, (ds.filter (·.enters root m)).getLast? = some P →
      (es.filter (·.mounts root m)).getLast? = some Q →
      (ByPath.lastAt? (P.mountings root) m).bind Mounting.source? = ByPath.lastAt? (Q.mounted root) m) := by
  intro mounted configured
  have hentry : ByPath.lastAt? (ds.flatMap (·.mountings root)) m =
      (ds.filter (·.enters root m)).getLast?.bind (fun P => ByPath.lastAt? (P.mountings root) m) :=
    ByPath.lastAt?_flatMap _ m ds
  have hconfigured : configured = (es.filter (·.mounts root m)).getLast?.bind (fun Q => ByPath.lastAt? (Q.mounted root) m) :=
    ByPath.lastAt?_flatMap _ m es
  cases hQ : (es.filter (·.mounts root m)).getLast? with
  | none =>
    -- no device mounts a filesystem there, so whatever is entered is a swap device
    have hnone : mounted = none := by
      rw [Option.eq_none_iff_forall_ne_some]
      intro source hsource
      obtain ⟨e, he, hs⟩ := Option.bind_eq_some_iff.1 hsource
      obtain ⟨d, hd, he⟩ := List.mem_flatMap.1 (ByPath.mem_of_lastAt? he)
      have hmounts : d.mounts root m = true := ByPath.enters_iff.2 ⟨source, Device.mem_mounted_iff.2 ⟨e, he, hs⟩⟩
      obtain ⟨Q, hQ'⟩ : ∃ Q, (es.filter (·.mounts root m)).getLast? = some Q :=
        exists_getLast?_filter_iff.2 ⟨d, hperm.mem_iff.1 hd, hmounts⟩
      cases hQ.symm.trans hQ'
    rw [hQ] at hconfigured
    simp [hnone, hconfigured]
  | some Q =>
    obtain ⟨hmem, hmounts⟩ := List.mem_filter.1 (List.mem_of_getLast? hQ)
    obtain ⟨P, hP⟩ : ∃ P, (ds.filter (·.enters root m)).getLast? = some P :=
      exists_getLast?_filter_iff.2 ⟨Q, hperm.mem_iff.2 hmem, Device.enters_of_mounts hmounts⟩
    obtain ⟨source, hsource⟩ := Option.isSome_iff_exists.1 (ByPath.lastAt?_isSome.trans hmounts)
    obtain ⟨e, he⟩ :=
      Option.isSome_iff_exists.1 (ByPath.lastAt?_isSome.trans (List.mem_filter.1 (List.mem_of_getLast? hP)).2)
    have hmounted : mounted = (ByPath.lastAt? (P.mountings root) m).bind Mounting.source? := by
      simp only [mounted, hentry, hP, Option.bind_some]
    rw [hQ, Option.bind_some] at hconfigured
    rw [hP, Option.bind_some] at hentry
    refine ⟨fun _ => ?_, fun _ => ?_, ?_⟩
    · rw [hconfigured, hsource, Option.isSome_some]
    · cases e with
      | filesystem => exact .inl (by rw [hmounted, he]; rfl)
      | swap device => exact .inr ⟨device, hentry.trans he⟩
    · rw [hmounted, hconfigured]
      constructor
      · intro heq P' Q' hP' hQ'
        cases Option.some.inj (hP.symm.trans hP')
        cases Option.some.inj hQ'
        exact heq
      · exact fun hall => hall P Q hP rfl

/-- The facts of a layout can be grouped exactly where the names of all containers can be keys. -/
theorem Layout.exists_ofFacts_iff {l : Layout} (hl : l.WellFormed) {facts : List Fact} (hfacts : l.facts = .ok facts) :
    (∃ c, HostConfig.ofFacts facts = .ok c) ↔
      ∀ name device keyFile, Fact.unlock name device keyFile ∈ facts → name.isKey = true := by
  refine HostConfig.exists_foldlM_iff.trans ⟨fun h => h.2, fun h => ⟨fun m device fsType options hm => ?_, h⟩⟩
  obtain ⟨path, -, rfl, -⟩ := texts_of_mem_facts hl hfacts hm
  rfl

/-- **Where the mount script and the host configuration agree.**  The script is the text of a table that has every path once;
the configuration exists where the names of all containers can be keys, and every line of its rendered table is one of its
filesystems.  What the script mounts is always configured, and what is configured is mounted unless a swap device stands in
its place.  At a mountpoint both have the same device exactly where the last device in the order of creation that enters
something there and the last declared device that mounts a filesystem there give it the same. -/
theorem mounted_eq_configured_iff {tree : Value} {root : String} {c : Compiled} (h : (compile tree root).outcome = .ok c)
    {l : Layout} (hl : (Layout.read tree).outcome = .ok l) :
    ∃ f, (l.mountFragment root c.order).outcome = .ok f ∧ c.mountScript = Layout.mountText f ∧
      (f.mounts.map Prod.fst).Nodup ∧
      (∀ path source root' m options fsType, f.mounts.get? path = some (.filesystem source root' m options fsType) →
        root' = root ∧ m = path) ∧
      ((∃ config, HostConfig.ofFacts c.facts = .ok config) ↔
        ∀ name device keyFile, Fact.unlock name device keyFile ∈ c.facts → name.isKey = true) ∧
      ∀ config, HostConfig.ofFacts c.facts = .ok config →
        (∀ text, config.fstab.outcome = .ok text → ∃ es lines, es.Perm config.fileSystems ∧
          List.Forall₂ (fun e line => ∃ rest, line = HostConfig.tableLine (e.2.device.toText :: e.1.toText :: rest))
          es lines ∧
          text = HostConfig.fstabHeader ++ String.join lines ++ String.join (config.swapDevices.map HostConfig.swapLine)) ∧
        ∀ m,
          let mounted := (f.mounts.get? m).bind Mounting.source?
          let configured := config.deviceAt? m
          (mounted.isSome → configured.isSome) ∧
          (configured.isSome → mounted.isSome ∨ ∃ device, f.mounts.get? m = some (.swap device)) ∧
          (mounted = configured ↔ ∀ P Q, ((l.inOrder c.order).filter (·.enters root m)).getLast? = some P →
            (l.devices.filter (·.mounts root m)).getLast? = some Q →
            (ByPath.lastAt? (P.mountings root) m).bind Mounting.source? = ByPath.lastAt? (Q.mounted root) m) := by
  obtain ⟨l', hl', -, hs, -, -⟩ := compile_ok h
  cases hl.symm.trans hl'
  have hwell := Layout.wellFormed_of_read hl
  have hperm := hwell.perm_inOrder (Order.perm_of_sort hwell.nodup (Requirement.sort_eq_ok hs))
  obtain ⟨f, hf, hscript, hfacts⟩ := compile_mounts h hl
  obtain ⟨-, hmounts, hmounting⟩ := Layout.mountFragment_ok hf
  obtain ⟨-, hmounted, -⟩ := Layout.facts_ok hwell hfacts root
  refine ⟨f, hf, hscript, hmounts.nodup, fun path source root' m options fsType he => ?_,
    Layout.exists_ofFacts_iff hwell hfacts, fun config hconfig => ⟨fun text => HostConfig.fstab_ok, fun m => ?_⟩⟩
  · rw [hmounts.get?] at he
    obtain ⟨d, hd, he⟩ := List.mem_flatMap.1 (ByPath.mem_of_lastAt? he)
    obtain ⟨v, hv, hentry⟩ := Device.mem_mountings_iff.1 he
    obtain ⟨hroot, hpath⟩ := Spec.keys_of_mounting ((hmounting d hd v hv).trans (congrArg Except.ok hentry))
    exact ⟨hroot.trans (Node.keeps_of_mem_visits _ _ v hv).2.1, hpath⟩
  · simp only [hmounts.get?, HostConfig.deviceAt?_ofFacts hconfig, hmounted]
    exact mounted_eq_configured_of_perm hperm root m

theorem Value.eq_text_of_bind_asText {x : Option Value} {s : String} (h : x.bind (·.asText.toOption) = some s) :
    x = some (.text s) := by
  obtain ⟨v, rfl, hv⟩ := Option.bind_eq_some_iff.1 h
  rw [Value.eq_text_of_asText (eq_ok_of_toOption hv)]

/-- A pool that is declared before a volume group with one of its members is made after it; its mount at the mountpoint of
another volume comes last in the script and first in the configuration. -/
theorem mounted_ne_configured_of_pool_on_volume :
    let volume (content : Value) : Value := node "lvm_lv" [entry "size" (.text "1G"), entry "content" content]
    let tree : Value := .map [
      entry "disk" (.map [entry "a" (node "disk" [entry "device" (.text "/dev/sda"),
        entry "content" (node "lvm_pv" [entry "vg" (.text "vg")])])]),
      entry "zpool" (.map [entry "tank" (node "zpool" [entry "mountpoint" (.text "/data")])]),
      entry "lvm_vg" (.map [entry "vg" (node "lvm_vg" [entry "lvs" (.map [
        entry "member" (volume (node "zfs" [entry "pool" (.text "tank")])),
        entry "data" (volume (node "filesystem" [entry "format" (.text "ext4"), entry "mountpoint" (.text "/data")]))])])])]
    ∃ c l f config, (compile tree "/mnt").outcome = .ok c ∧ (Layout.read tree).outcome = .ok l ∧
      (l.mountFragment "/mnt" c.order).outcome = .ok f ∧ c.mountScript = Layout.mountText f ∧
      HostConfig.ofFacts c.facts = .ok config ∧
      (f.mounts.get? "/data").bind Mounting.source? = some (.text "tank") ∧
      config.deviceAt? "/data" = some (.text "/dev/vg/data") := by
  intro volume tree
  have hchecked : (compile tree "/mnt").outcome.toOption.bind (fun c => (Layout.read tree).outcome.toOption.bind (fun l =>
      (l.mountFragment "/mnt" c.order).outcome.toOption.bind (fun f =>
      (HostConfig.ofFacts c.facts).toOption.map (fun config =>
        (c.mountScript == Layout.mountText f, ((f.mounts.get? "/data").bind Mounting.source?).bind (·.asText.toOption),
          (config.deviceAt? "/data").bind (·.asText.toOption)))))) = some (true, some "tank", some "/dev/vg/data") := by
    decide +kernel
  obtain ⟨c, hc, hchecked⟩ := Option.bind_eq_some_iff.1 hchecked
  obtain ⟨l, hl, hchecked⟩ := Option.bind_eq_some_iff.1 hchecked
  obtain ⟨f, hf, hchecked⟩ := Option.bind_eq_some_iff.1 hchecked
  obtain ⟨config, hconfig, hchecked⟩ := Option.map_eq_some_iff.1 hchecked
  simp only [Prod.mk.injEq, beq_iff_eq] at hchecked
  obtain ⟨hscript, hmounted, hconfigured⟩ := hchecked
  exact ⟨c, l, f, config, eq_ok_of_toOption hc, eq_ok_of_toOption hl, eq_ok_of_toOption hf, hscript,
    eq_ok_of_toOption hconfig, Value.eq_text_of_bind_asText hmounted, Value.eq_text_of_bind_asText hconfigured⟩

/-- The same pool with a mountpoint of its own. -/
theorem mounted_eq_configured_of_pool_on_volume :
    let volume (content : Value) : Value := node "lvm_lv" [entry "size" (.text "1G"), entry "content" content]
    let tree : Value := .map [
      entry "disk" (.map [entry "a" (node "disk" [entry "device" (.text "/dev/sda"),
        entry "content" (node "lvm_pv" [entry "vg" (.text "vg")])])]),
      entry "zpool" (.map [entry "tank" (node "zpool" [entry "mountpoint" (.text "/srv")])]),
      entry "lvm_vg" (.map [entry "vg" (node "lvm_vg" [entry "lvs" (.map [
        entry "member" (volume (node "zfs" [entry "pool" (.text "tank")])),
        entry "data" (volume (node "filesystem" [entry "format" (.text "ext4"), entry "mountpoint" (.text "/data")]))])])])]
    ∃ c l f config, (compile tree "/mnt").outcome = .ok c ∧ (Layout.read tree).outcome = .ok l ∧
      c.order = [⟨"disk", "a"⟩, ⟨"lvm_vg", "vg"⟩, ⟨"zpool", "tank"⟩] ∧
      (l.mountFragment "/mnt" c.order).outcome = .ok f ∧ HostConfig.ofFacts c.facts = .ok config ∧
      (f.mounts.get? "/data").bind Mounting.source? = config.deviceAt? "/data" := by
  intro volume tree
  have hchecked : (compile tree "/mnt").outcome.toOption.bind (fun c => (Layout.read tree).outcome.toOption.bind (fun l =>
      (HostConfig.ofFacts c.facts).toOption.map (fun _ => (c.order,
        ((l.inOrder c.order).filter (·.enters "/mnt" "/data")).getLast?.map (fun P =>
          ((ByPath.lastAt? (P.mountings "/mnt") "/data").bind Mounting.source?).bind (·.asText.toOption)),
        (l.devices.filter (·.mounts "/mnt" "/data")).getLast?.map (fun Q =>
          (ByPath.lastAt? (Q.mounted "/mnt") "/data").bind (·.asText.toOption)))))) =
      some ([⟨"disk", "a"⟩, ⟨"lvm_vg", "vg"⟩, ⟨"zpool", "tank"⟩], some (some "/dev/vg/data"),
        some (some "/dev/vg/data")) := by
    decide +kernel
  obtain ⟨c, hc, hchecked⟩ := Option.bind_eq_some_iff.1 hchecked
  obtain ⟨l, hl, hchecked⟩ := Option.bind_eq_some_iff.1 hchecked
  obtain ⟨config, hconfig, hchecked⟩ := Option.map_eq_some_iff.1 hchecked
  simp only [Prod.mk.injEq] at hchecked
  obtain ⟨horder, hmounted, hconfigured⟩ := hchecked
  replace hc := eq_ok_of_toOption hc
  replace hl := eq_ok_of_toOption hl
  replace hconfig := eq_ok_of_toOption hconfig
  obtain ⟨f, hf, -, -, -, -, hagree⟩ := mounted_eq_configured_iff hc hl
  refine ⟨c, l, f, config, hc, hl, horder, hf, hconfig, ((hagree config hconfig).2 "/data").2.2.2 (fun P Q hP hQ => ?_)⟩
  rw [hP, Option.map_some, Option.some.injEq] at hmounted
  rw [hQ, Option.map_some, Option.some.injEq] at hconfigured
  rw [Value.eq_text_of_bind_asText hmounted, Value.eq_text_of_bind_asText hconfigured]

end Provision
