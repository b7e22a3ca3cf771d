import Provision.Proofs.Layout.Partitions
/-!
# The numbers that partitions get

A partition is added without a word of its number: it gets the one after those that were added since its device was
labelled (`partitionCount`).  The partitions of a table are added in the order in which they are listed, and what lies
in them adds none to the device of the table (`Node.divides_elsewhere`), so the partition in the `k`-th place gets the
number `k`.  Its flags are set, and its content is found, under the number that its declaration gives it, which is the
same only where none is given or that one (`partition_numbers_iff`).
-/
namespace Provision

open Value (entry node)

namespace Action

/-- The device whose partitions a command changes: one that is labelled, or to which a partition is added. -/
def divided? : Action → Option Value
  | label device _ | addPartition device .. => some device
  | _ => none

/-- How many partitions a device has after a command.  A device that is labelled has none; commands tell devices apart
by their words. -/
def countPartitions (device : Value) (count : Nat) : Action → Nat
  | label d _ => if d.words = device.words then 0 else count
  | addPartition d .. => if d.words = device.words then count + 1 else count
  | _ => count

theorem countPartitions_of_elsewhere {device : Value} {a : Action} (h : ∀ d ∈ a.divided?, d.words ≠ device.words)
    (count : Nat) :
    a.countPartitions device count = count := by
  cases a
  case label d _ => exact if_neg (h d rfl)
  case addPartition d _ _ _ _ _ => exact if_neg (h d rfl)
  all_goals rfl

end Action

/-- **How many partitions a device has** after commands. -/
def partitionCount (device : Value) (as : List Action) : Nat := as.foldl (Action.countPartitions device) 0

theorem foldl_countPartitions_of_elsewhere {device : Value} : ∀ {as : List Action} (count : Nat),
    (∀ a ∈ as, ∀ d ∈ a.divided?, d.words ≠ device.words) → as.foldl (Action.countPartitions device) count = count
  | [], _, _ => rfl
  | a :: as, count, h => by
    rw [List.foldl_cons, Action.countPartitions_of_elsewhere (h a List.mem_cons_self)]
    exact foldl_countPartitions_of_elsewhere count (fun b hb => h b (List.mem_cons_of_mem _ hb))

namespace Spec

/-- Only a table and a partition change the partitions of a device, which is their own. -/
theorem divided_of_mem_actions {spec : Spec} {ctx : Context} {devices : List String} {as : List Action}
    (h : spec.actions ctx devices = .ok as) {a : Action} (ha : a ∈ as) {d : Value} (hd : d ∈ a.divided?) :
    (spec.kind = .table ∨ spec.kind = .partition) ∧ d = ctx.device := by
  cases spec
  case table =>
    cases h
    obtain rfl := List.mem_singleton.1 ha
    exact ⟨.inl rfl, (Option.some.inj hd).symm⟩
  case partition =>
    cases h
    simp only [List.mem_append, List.mem_cons, List.not_mem_nil, or_false, List.mem_map] at ha
    obtain (((rfl | rfl) | ha) | ⟨flag, -, rfl⟩) | rfl := ha
    · exact ⟨.inr rfl, (Option.some.inj hd).symm⟩
    · cases hd
    · split at ha
      · cases List.mem_singleton.1 ha
        cases hd
      · cases ha
    · cases hd
    · cases hd
  case dataset name type options mountOptions mountpoint size =>
    cases type <;> cases h <;> simp at ha
    · subst ha
      cases hd
    · obtain rfl | rfl := ha <;> cases hd
  case subvolume | logicalVolume | pool =>
    obtain ⟨_, _, h⟩ := except_bind_eq_ok_iff.1 h
    cases h
    obtain rfl := List.mem_singleton.1 ha
    cases hd
  case array | luks =>
    cases h
    simp only [List.mem_cons, List.not_mem_nil, or_false] at ha
    obtain rfl | rfl := ha <;> cases hd
  case disk | poolMember | arrayMember | nodev =>
    cases h
    cases ha
  all_goals
    cases h
    obtain rfl := List.mem_singleton.1 ha
    cases hd

end Spec

namespace Visit

theorem divided_of_mem_commands {v : Visit} (h : v.own.outcome = .ok ()) {a : Action} (ha : a ∈ v.commands) {d : Value}
    (hd : d ∈ a.divided?) : (v.node.spec.kind = .table ∨ v.node.spec.kind = .partition) ∧ d = v.ctx.device := by
  obtain ⟨-, devices, hactions, -⟩ := own_ok h
  exact Spec.divided_of_mem_actions hactions ha hd

end Visit

namespace Kind

/-- The kinds of nodes that lie in a partition, or in what lies there. -/
def inPartition : List Kind :=
  [.table, .partition, .filesystem, .btrfs, .subvolume, .swap, .physicalVolume, .poolMember, .arrayMember, .luks]

theorem inPartition_of_takes : ∀ {k k' : Kind}, k ∈ inPartition → k.holding.takes k' = true → k' ∈ inPartition := by
  have hall : ∀ k ∈ inPartition, ∀ k' ∈ all, k.holding.takes k' = true → k' ∈ inPartition := by decide
  exact fun {k k'} hk h => hall k hk k' (mem_all k') h

theorem ne_of_takes {k k' : Kind} (hk : k ∈ inPartition) (hluks : k ≠ .luks) (htable : k ≠ .table)
    (h : k.holding.takes k' = true) : k' ≠ .table ∧ k' ≠ .partition := by
  have hall : ∀ k ∈ inPartition, k ≠ .luks → k ≠ .table → ∀ k' ∈ all, k.holding.takes k' = true →
      k' ≠ .table ∧ k' ≠ .partition := by decide
  exact hall k hk hluks htable k' (mem_all k') h

end Kind

namespace DevicePath

theorem family?_mapper (name : String) : family? (mapper name) = none := by
  have hbegins : beginnings.all (fun b => b.toList.take 7 != "/dev/ma".toList && 7 ≤ b.toList.length) = true := by decide
  refine Option.not_isSome_iff_eq_none.1 fun h => ?_
  obtain ⟨b, hb, tail, hpath, -⟩ := isSome_family?_iff.1 h
  have hb := List.all_eq_true.1 hbegins b hb
  simp only [Bool.and_eq_true, bne_iff_ne, decide_eq_true_eq] at hb
  refine hb.1 ?_
  have htake : (b.toList ++ tail).take 7 = b.toList.take 7 := List.take_append_of_le_length hb.2
  rw [← htake, ← hpath, mapper, String.toList_append]
  rfl

end DevicePath

namespace Visit

/-- Whether a node lies in a partition, and below an opened container if it is a table or a partition itself. -/
def Apart (v : Visit) : Prop :=
  v.node.spec.kind ∈ Kind.inPartition ∧
    (v.node.spec.kind = .table ∨ v.node.spec.kind = .partition → ∃ name, v.ctx.device = .text (DevicePath.mapper name))

theorem Apart.below {v : Visit} (h : v.Apart) {inner : Context} (hinner : v.node.spec.inner v.ctx = .ok inner) {c : Node}
    (hc : v.node.spec.kind.holding.takes c.spec.kind = true) : Apart ⟨c, inner⟩ := by
  obtain ⟨hkind, hdevice⟩ := h
  refine ⟨Kind.inPartition_of_takes hkind hc, fun hdivides => ?_⟩
  by_cases hluks : v.node.spec.kind = .luks
  · obtain ⟨⟨key, spec, hooks, children⟩, ctx⟩ := v
    cases spec <;> cases hluks
    cases hinner
    exact ⟨_, rfl⟩
  by_cases htable : v.node.spec.kind = .table
  · obtain ⟨name, hname⟩ := hdevice (.inl htable)
    obtain ⟨⟨key, spec, hooks, children⟩, ctx⟩ := v
    cases spec <;> cases htable
    cases hinner
    exact ⟨name, hname⟩
  · obtain ⟨htable, hpartition⟩ := Kind.ne_of_takes hkind hluks htable hc
    exact absurd hdivides (not_or_intro htable hpartition)

end Visit

namespace Node

mutual

theorem apart_of_mem_visits : ∀ (n : Node) (ctx : Context), n.Fits → Visit.Apart ⟨n, ctx⟩ → ∀ v ∈ n.visits ctx, v.Apart
  | ⟨key, spec, hooks, children⟩, ctx, ⟨hkinds, hfits⟩, hapart, v, hv => by
    rw [visits_eq] at hv
    obtain rfl | hv := List.mem_cons.1 hv
    · exact hapart
    · split at hv
      · rename_i inner hhanded
        have hinner := (Spec.handed?_eq_some_iff.1 hhanded).2
        exact apart_of_mem_visitsAll children inner hfits (fun c hc => hapart.below hinner (hkinds c hc)) v hv
      · cases hv

theorem apart_of_mem_visitsAll : ∀ (ns : List Node) (ctx : Context), (∀ n ∈ ns, n.Fits) → (∀ n ∈ ns, Visit.Apart ⟨n, ctx⟩) →
    ∀ v ∈ visitsAll ns ctx, v.Apart
  | [], _, _, _, _, hv => by cases hv
  | n :: ns, ctx, hfits, hapart, v, hv => by
    rw [visitsAll] at hv
    obtain hv | hv := List.mem_append.1 hv
    · exact apart_of_mem_visits n ctx (hfits n List.mem_cons_self) (hapart n List.mem_cons_self) v hv
    · exact apart_of_mem_visitsAll ns ctx (fun m hm => hfits m (List.mem_cons_of_mem _ hm))
        (fun m hm => hapart m (List.mem_cons_of_mem _ hm)) v hv

end

end Node

namespace Visit

theorem commands_of_table {v : Visit} {f : TableFormat} (hspec : v.node.spec = .table f) (h : v.own.outcome = .ok ()) :
    v.commands = [.label v.ctx.device f] := by
  obtain ⟨-, devices, hactions, -⟩ := own_ok h
  rw [hspec] at hactions
  exact (Except.ok.inj hactions).symm

/-- **The commands of a partition**: one adds it, the others set flags under its number. -/
theorem commands_of_partition {v : Visit} (hk : v.node.spec.kind = .partition) (h : v.own.outcome = .ok ()) :
    ∃ label fsType start stop rest,
      v.commands = .addPartition v.ctx.device v.node.spec.index label fsType start stop :: rest ∧
        ∀ a ∈ rest, a.divided? = none ∧ ∀ d j flag, a = .setFlag d j flag → j = v.node.spec.index := by
  obtain ⟨-, devices, hactions, -⟩ := own_ok h
  obtain ⟨⟨key, spec, hooks, children⟩, ctx⟩ := v
  cases spec
  case partition name partType fsType start stop index flags bootable =>
    refine ⟨_, _, _, _, _, (Except.ok.inj hactions).symm, fun a ha => ?_⟩
    simp only [List.append_eq, List.mem_append, List.mem_cons, List.not_mem_nil, or_false, List.mem_map] at ha
    obtain (((rfl | ha) | ⟨flag, -, rfl⟩) | rfl) := ha
    · exact ⟨rfl, fun _ _ _ h => by cases h⟩
    · split at ha
      · obtain rfl := List.mem_singleton.1 ha
        exact ⟨rfl, fun _ _ _ h => by cases h; rfl⟩
      · cases ha
    · exact ⟨rfl, fun _ _ _ h => by cases h; rfl⟩
    · exact ⟨rfl, fun _ _ _ h => by cases h⟩
  all_goals cases hk

end Visit

namespace Node

theorem exists_family_of_inner {n : Node} {ctx inner : Context} (hk : n.spec.kind = .partition)
    (h : n.spec.inner ctx = .ok inner) : ∃ device f, ctx.device = .text device ∧ DevicePath.family? device = some f := by
  obtain ⟨key, spec, hooks, children⟩ := n
  cases spec
  case partition =>
    obtain ⟨path, hpath, -⟩ := except_bind_eq_ok_iff.1 h
    cases hdevice : ctx.device
    case text device =>
      rw [hdevice] at hpath
      obtain ⟨f, hf, -⟩ := DevicePath.partition_eq_ok_iff.1 hpath
      exact ⟨device, f, rfl, hf⟩
    all_goals
      rw [hdevice] at hpath
      cases hpath
  all_goals cases hk

theorem divides_elsewhere {n : Node} {ctx inner : Context} (hfits : n.Fits) (hk : n.spec.kind = .partition)
    (hinner : n.spec.inner ctx = .ok inner) (hown : ∀ v ∈ visitsAll n.children inner, v.own.outcome = .ok ()) :
    ∀ a ∈ (visitsAll n.children inner).flatMap Visit.commands, ∀ d ∈ a.divided?, d.words ≠ ctx.device.words := by
  intro a ha d hd
  obtain ⟨v, hv, ha⟩ := List.mem_flatMap.1 ha
  obtain ⟨hkinds, hbelow⟩ := hfits
  have hapart (c : Node) (hc : c ∈ n.children) : Visit.Apart ⟨c, inner⟩ := by
    have hkind := hkinds c hc
    rw [hk] at hkind
    obtain ⟨htable, hpartition⟩ := Kind.ne_of_takes (by decide) (by decide) (by decide) hkind
    exact ⟨Kind.inPartition_of_takes (by decide) hkind, fun h => absurd h (not_or_intro htable hpartition)⟩
  obtain ⟨hdivides, rfl⟩ := Visit.divided_of_mem_commands (hown v hv) ha hd
  obtain ⟨name, hname⟩ := (apart_of_mem_visitsAll n.children inner hbelow hapart v hv).2 hdivides
  obtain ⟨device, f, hdevice, hf⟩ := exists_family_of_inner hk hinner
  rw [hname, hdevice]
  intro hwords
  obtain rfl : DevicePath.mapper name = device := List.head_eq_of_cons_eq hwords
  rw [DevicePath.family?_mapper] at hf
  cases hf

/-- **A partition with all that lies in it** is one more partition of its device. -/
theorem countPartitions_visits {n : Node} {ctx : Context} (hfits : n.Fits) (hk : n.spec.kind = .partition)
    (hown : ∀ v ∈ n.visits ctx, v.own.outcome = .ok ()) (count : Nat) :
    ((n.visits ctx).flatMap Visit.commands).foldl (Action.countPartitions ctx.device) count = count + 1 := by
  rw [visits_eq] at hown ⊢
  obtain ⟨label, fsType, start, stop, rest, hcommands, hrest⟩ := Visit.commands_of_partition hk (hown _ List.mem_cons_self)
  have hquiet : rest.foldl (Action.countPartitions ctx.device) (count + 1) = count + 1 :=
    foldl_countPartitions_of_elsewhere _ (fun a ha d hd => by simp [(hrest a ha).1] at hd)
  rw [List.flatMap_cons, List.foldl_append, hcommands, List.foldl_cons, Action.countPartitions, if_pos rfl, hquiet]
  split
  · rename_i inner hhanded
    simp only [hhanded] at hown
    exact foldl_countPartitions_of_elsewhere _ (divides_elsewhere hfits hk (Spec.handed?_eq_some_iff.1 hhanded).2
      (fun v hv => hown v (List.mem_cons_of_mem _ hv)))
  · rfl

theorem countPartitions_visitsAll {ctx : Context} : ∀ {ns : List Node} (count : Nat), (∀ n ∈ ns, n.Fits) →
    (∀ n ∈ ns, n.spec.kind = .partition) → (∀ v ∈ visitsAll ns ctx, v.own.outcome = .ok ()) →
    ((visitsAll ns ctx).flatMap Visit.commands).foldl (Action.countPartitions ctx.device) count = count + ns.length
  | [], _, _, _, _ => rfl
  | n :: ns, count, hfits, hk, hown => by
    rw [visitsAll] at hown ⊢
    rw [List.flatMap_append, List.foldl_append, countPartitions_visits (hfits n List.mem_cons_self) (hk n List.mem_cons_self)
      (fun v hv => hown v (List.mem_append_left _ hv)), countPartitions_visitsAll (count + 1)
      (fun m hm => hfits m (List.mem_cons_of_mem _ hm)) (fun m hm => hk m (List.mem_cons_of_mem _ hm))
      (fun v hv => hown v (List.mem_append_right _ hv)), List.length_cons, Nat.add_right_comm, Nat.add_assoc]

theorem visitsAll_append (ns ms : List Node) (ctx : Context) :
    visitsAll (ns ++ ms) ctx = visitsAll ns ctx ++ visitsAll ms ctx := by
  induction ns with
  | nil => rfl
  | cons n ns ih => rw [List.cons_append, visitsAll, ih, visitsAll, List.append_assoc]

theorem commands_create {n : Node} {ctx : Context} (h : (n.create ctx).outcome = .ok ()) :
    Creation.commands (n.create ctx).record = (n.visits ctx).flatMap Visit.commands := by
  rw [← Creation.commands_effects, (effects_create n ctx h).1, Creation.commands_flatMap]
  exact List.flatMap_congr fun v _ => Creation.commands_effects _

end Node

namespace Visit

/-- **Whether a partition is the `i`-th of its device**: among the commands is the one that adds it, and whatever ran
before them, the device has `i` partitions then.  The other commands of the partition follow. -/
def IsAddedAs (v : Visit) (commands : List Action) (i : Nat) : Prop :=
  ∃ before add rest after, commands = before ++ (add :: rest) ++ after ∧ v.commands = add :: rest ∧
    (∃ index label fsType start stop, add = .addPartition v.ctx.device index label fsType start stop) ∧
    ∀ earlier, partitionCount v.ctx.device (earlier ++ before ++ [add]) = i

/-- **Whether a partition is taken for the one of a number**: its flags are set on that partition, and what lies in it
is placed there. -/
def IsTakenFor (v : Visit) (number : Value) : Prop :=
  (∀ d j flag, .setFlag d j flag ∈ v.commands → j = number) ∧
    (v.node.children ≠ [] → ∀ p, v.IsFoundAt p → DevicePath.partition v.ctx.device number.toText = .ok p)

/-- Whether the number of a partition is used at all. -/
def UsesNumber (v : Visit) : Prop := (∃ d j flag, .setFlag d j flag ∈ v.commands) ∨ v.node.children ≠ []

theorem exists_isFoundAt {v : Visit} (hk : v.node.spec.kind = .partition)
    (h : (Node.createBelow v.node v.ctx).outcome = .ok ()) (hchildren : v.node.children ≠ []) : ∃ p, v.IsFoundAt p := by
  obtain ⟨⟨key, spec, hooks, children⟩, ctx⟩ := v
  cases spec
  case partition name partType fsType start stop index flags bootable =>
    obtain ⟨c, cs, rfl⟩ := List.exists_cons_of_ne_nil hchildren
    obtain ⟨inner, hinner, -⟩ := Traced.outcome_bind_eq_ok_iff.1 h
    rw [Traced.outcome_liftM] at hinner
    obtain ⟨p, hp, -⟩ := except_bind_eq_ok_iff.1 (Spec.enter_eq_ok_iff.1 hinner).1
    exact ⟨p, rfl, except_bind_eq_ok_iff.2 ⟨p, hp, rfl⟩⟩
  all_goals cases hk

theorem isTakenFor_iff {v : Visit} (hk : v.node.spec.kind = .partition) (h : (v.node.create v.ctx).outcome = .ok ())
    {i : Int}
    (hindex : v.node.spec.index = .int i) (hi : 1 ≤ i) {j : Int} (hj : 1 ≤ j) :
    v.IsTakenFor (.int j) ↔ (v.UsesNumber → i = j) := by
  obtain ⟨hown, hbelow, -⟩ := Node.create_ok h
  obtain ⟨label, fsType, start, stop, rest, hcommands, hrest⟩ := commands_of_partition hk hown
  have hflag {d number : Value} {flag : String} (hmem : .setFlag d number flag ∈ v.commands) : number = .int i := by
    rw [hcommands] at hmem
    obtain hmem | hmem := List.mem_cons.1 hmem
    · cases hmem
    · rw [← hindex]
      exact (hrest _ hmem).2 _ _ _ rfl
  constructor
  · rintro ⟨hflags, hplaces⟩ (⟨d, number, flag, hmem⟩ | hchildren)
    · exact Value.int.inj ((hflag hmem).symm.trans (hflags d number flag hmem))
    · obtain ⟨p, hp⟩ := exists_isFoundAt hk hbelow hchildren
      obtain ⟨-, device, hdevice, hpath⟩ := isFoundAt_iff.1 hp
      have hsame := hplaces hchildren p hp
      rw [hdevice] at hsame
      rw [hindex] at hpath
      exact ((DevicePath.partition_eq_partition_iff hi hj hpath hsame).1 rfl).eq
  · intro hsame
    refine ⟨fun d number flag hmem => ?_, fun hchildren p hp => ?_⟩
    · rw [hflag hmem, hsame (.inl ⟨d, number, flag, hmem⟩)]
    · obtain ⟨-, device, hdevice, hpath⟩ := isFoundAt_iff.1 hp
      rw [hdevice, ← hsame (.inr hchildren), ← hindex]
      exact hpath

end Visit

namespace Node

theorem outcome_create_of_mem {ctx : Context} : ∀ {ns : List Node}, (createAll ns ctx).outcome = .ok () → ∀ n ∈ ns,
    (n.create ctx).outcome = .ok ()
  | [], _, _, hn => by cases hn
  | m :: ms, h, n, hn => by
    rw [createAll] at h
    obtain ⟨_, hm, hms⟩ := Traced.outcome_bind_eq_ok_iff.1 h
    obtain rfl | hn := List.mem_cons.1 hn
    · exact hm
    · exact outcome_create_of_mem hms n hn

theorem createAll_of_table {t : Node} {ctx : Context} {f : TableFormat} (hspec : t.spec = .table f)
    (h : (t.create ctx).outcome = .ok ()) : ∃ inner, t.spec.inner ctx = .ok inner ∧ inner.device = ctx.device ∧
      (createAll t.children inner).outcome = .ok () ∧ t.visits ctx = ⟨t, ctx⟩ :: visitsAll t.children inner := by
  have hhanded : t.spec.handed? ctx = some { ctx with tableFormat := some f } := by rw [hspec]; rfl
  have hbelow := createBelow_ok (create_ok h).2.1
  rw [hhanded] at hbelow
  exact ⟨_, (Spec.handed?_eq_some_iff.1 hhanded).2, rfl, hbelow.1, by rw [visits_eq, hhanded]⟩

/-- **The partitions of a table are added in their order**: what comes before one is the table, and the partitions
before it. -/
theorem isAddedAs {t n : Node} {ns ms : List Node} {ctx inner : Context} {f : TableFormat} (hspec : t.spec = .table f)
    (hfits : t.Fits) (h : (t.create ctx).outcome = .ok ()) (hinner : t.spec.inner ctx = .ok inner)
    (hchildren : t.children = ns ++ n :: ms) :
    Visit.IsAddedAs ⟨n, inner⟩ (Creation.commands (t.create ctx).record) (ns.length + 1) := by
  obtain ⟨_, hsame, hdevice, -, hvisits⟩ := createAll_of_table hspec h
  obtain rfl := Except.ok.inj (hinner.symm.trans hsame)
  obtain ⟨hkinds, hbelow⟩ := hfits
  have hmem (m : Node) (hm : m ∈ ns) : m ∈ t.children := hchildren ▸ List.mem_append_left _ hm
  have hkind (m : Node) (hm : m ∈ t.children) : m.spec.kind = .partition := by
    simpa [hspec, Spec.kind, Kind.holding, Kind.Holding.takes] using hkinds m hm
  obtain ⟨inside, hinside⟩ : ∃ inside, n.visits inner = ⟨n, inner⟩ :: inside := ⟨_, visits_eq n inner⟩
  have hown := (effects_create t ctx h).2
  rw [hvisits, hchildren, visitsAll_append, visitsAll, hinside] at hown
  simp only [List.cons_append, List.mem_cons, List.mem_append, or_imp, forall_and, forall_eq] at hown
  obtain ⟨hself, hns, hn, -⟩ := hown
  obtain ⟨label, fsType, start, stop, rest, hcommands, -⟩ :=
    Visit.commands_of_partition (v := ⟨n, inner⟩) (hkind n (hchildren ▸ by simp)) hn
  refine ⟨.label ctx.device f :: (visitsAll ns inner).flatMap Visit.commands, _, rest,
    inside.flatMap Visit.commands ++ (visitsAll ms inner).flatMap Visit.commands, ?_, hcommands, ⟨_, _, _, _, _, rfl⟩,
    fun earlier => ?_⟩
  · rw [commands_create h, hvisits, List.flatMap_cons, Visit.commands_of_table hspec hself, hchildren,
      visitsAll_append, visitsAll, hinside, List.flatMap_append, List.flatMap_append, List.flatMap_cons, hcommands]
    simp only [List.append_assoc, List.cons_append, List.nil_append]
  · have hcount := countPartitions_visitsAll 0 (fun m hm => hbelow m (hmem m hm)) (fun m hm => hkind m (hmem m hm)) hns
    rw [partitionCount, List.foldl_append, List.foldl_append, List.foldl_cons, List.foldl_cons, List.foldl_nil,
      Action.countPartitions, Action.countPartitions, if_pos rfl, if_pos (by rw [hdevice]), hcount, Nat.zero_add]

end Node

theorem Spec.index_of_read {p : Place} {d : Declared} {f : DatasetType → TableFormat → Spec} (h : Spec.read p d = .ok f)
    (hk : p.kind = .partition) {k : Nat} (hposition : p.position = some k) (type : DatasetType) (format : TableFormat) :
    (f type format).index = (d.get? "index").getD (.int (k + 1)) := by
  simp only [Spec.read, hk, except_bind_eq_ok_iff, pure, Except.pure, Except.ok.injEq] at h
  obtain ⟨index, hindex, flags, -, rfl⟩ := h
  rw [hposition] at hindex
  unfold Declared.require at hindex
  cases hget : d.get? "index" <;> rw [hget] at hindex <;> exact (Except.ok.inj hindex).symm

/-- **The partitions of a table are read from the items of a list**, each under the number of its place if it gives none. -/
theorem Declaration.index_of_read {d : Declaration} {t : Node} (h : d.read.outcome = .ok t)
    (hk : t.spec.kind = .table) {k : Nat}
    {n : Node} (hn : t.children[k]? = some n) :
    ∃ b, d.below[k]? = some b ∧ b.read.outcome = .ok n ∧ n.spec.index = (b.raw.given? "index").getD (.int (k + 1)) := by
  obtain ⟨-, -, nodes, -, -, hnodes, hcollect, -⟩ := Declaration.read_eq_ok h
  have hholding : d.place.kind.holding = .partitions := by rw [← (Node.fits_of_read h).2, hk]; rfl
  rw [hholding] at hcollect
  obtain ⟨_, -, rfl⟩ := except_map_eq_ok_iff.1 hcollect
  obtain ⟨b, hb, hread⟩ : ∃ b, d.below[k]? = some b ∧ b.read.outcome = .ok n := by
    obtain ⟨hlt, rfl⟩ := List.getElem?_eq_some_iff.1 hn
    exact ⟨d.below.get ⟨k, hnodes.length_eq ▸ hlt⟩, List.getElem?_eq_getElem _, (List.forall₂_iff_get.1 hnodes).2 k _ _⟩
  have hplace : b.place.kind = .partition ∧ b.place.position = some k := by
    unfold Declaration.below at hb
    split at hb
    · rw [hholding, Kind.Holding.declarations, List.getElem?_map, List.getElem?_zipIdx] at hb
      obtain ⟨⟨x, i⟩, hx, rfl⟩ := Option.map_eq_some_iff.1 hb
      obtain ⟨y, -, hy⟩ := Option.map_eq_some_iff.1 hx
      obtain ⟨-, rfl⟩ := Prod.mk.inj hy
      exact ⟨rfl, congrArg some (Nat.zero_add k)⟩
    · cases hb
  obtain ⟨es, f, -, hes, hf, -, -, hfinish, -⟩ := Declaration.read_eq_ok hread
  obtain ⟨type, format, hspec⟩ := Spec.exists_of_finish hfinish
  refine ⟨b, hb, hread, ?_⟩
  rw [hspec, Spec.index_of_read (Declaration.read_of_opening hf) hplace.1 hplace.2, hes, Declared.get?_eq_given?]

/-- **The number of a partition.**  In the creation of a table the partition in the `k`-th place is the `k`-th to be
added to the device.  Its number is the one that its declaration gives or else that of its place.  It is taken for the
partition that it is, if anything is done by number at all, exactly where the two are the same. -/
theorem partition_numbers_iff {tree : Value} {l : Layout} (h : (Layout.read tree).outcome = .ok l) {t : Node}
    (ht : t ∈ l.nodes)
    (hgpt : t.spec = .table .gpt) {ctx : Context} (hcreate : (t.create ctx).outcome = .ok ()) :
    ∃ inner d, t.spec.inner ctx = .ok inner ∧ tree.Declares d ∧ d.read.outcome = .ok t ∧
      ∀ k n, t.children[k]? = some n →
        Visit.IsAddedAs ⟨n, inner⟩ (Creation.commands (t.create ctx).record) (k + 1) ∧
        (∃ b, d.below[k]? = some b ∧ b.read.outcome = .ok n ∧
          n.spec.index = (b.raw.given? "index").getD (.int (k + 1))) ∧
        (Visit.IsTakenFor ⟨n, inner⟩ (.int (k + 1)) ↔
          (Visit.UsesNumber ⟨n, inner⟩ → n.spec.index = .int (k + 1))) := by
  obtain ⟨d, hd, hread⟩ := Layout.exists_declaration h ht
  have hk : t.spec.kind = .table := by rw [hgpt]; rfl
  obtain ⟨inner, hinner, -, hbelow, -⟩ := Node.createAll_of_table hgpt hcreate
  refine ⟨inner, d, hinner, hd, hread, fun k n hn => ⟨?_, Declaration.index_of_read hread hk hn, ?_⟩⟩
  · obtain ⟨hlt, hnk⟩ := List.getElem?_eq_some_iff.1 hn
    have hchildren : t.children = t.children.take k ++ n :: t.children.drop (k + 1) := by
      rw [← hnk, List.getElem_cons_drop, List.take_append_drop]
    have hadded := Node.isAddedAs hgpt (Node.fits_of_read hread).1 hcreate hinner hchildren
    rwa [List.length_take_of_le (Nat.le_of_lt hlt)] at hadded
  · have hmem := List.mem_of_getElem? hn
    have hkind : n.spec.kind = .partition := by
      obtain ⟨⟨hkinds, -⟩, -⟩ := Node.fits_of_read hread
      simpa [hk, Kind.holding, Kind.Holding.takes] using hkinds n hmem
    obtain ⟨i, hi⟩ := Layout.exists_number_of_read h (Layout.mem_nodes_of_mem_children ht hmem) hkind
    rw [Visit.isTakenFor_iff (v := ⟨n, inner⟩) hkind (Node.outcome_create_of_mem hbelow n hmem) hi (by omega) (by omega), hi,
      Value.int.injEq]

def Layout.twoPartitions? (l : Layout) : Option (Node × Node × Node) :=
  l.nodes.findSome? (fun t => match t.spec, t.children with
    | .table .gpt, [n, m] => some (t, n, m)
    | _, _ => none)

theorem Layout.eq_of_twoPartitions? {l : Layout} {t n m : Node} (h : l.twoPartitions? = some (t, n, m)) :
    t ∈ l.nodes ∧ t.spec = .table .gpt ∧ t.children = [n, m] := by
  obtain ⟨s, ht, h⟩ := List.exists_of_findSome?_eq_some h
  split at h
  · rename_i hspec hchildren
    cases h
    exact ⟨ht, hspec, hchildren⟩
  · cases h

/-- A table whose second partition is given the number three: it is taken for a partition that there is not. -/
theorem partition_numbers_iff_of_gap :
    let tree : Value := .map [entry "disk" (.map [entry "a" (node "disk" [entry "device" (.text "/dev/sda"),
      entry "content" (node "table" [entry "partitions" (.list [node "partition" [entry "content" (node "swap" [])],
        node "partition" [entry "index" (.int 3), entry "content" (node "swap" [])]])])])])]
    ∃ l t n m inner, (Layout.read tree).outcome = .ok l ∧ t ∈ l.nodes ∧ t.spec = .table .gpt ∧ t.children = [n, m] ∧
      (t.create { device := .text "/dev/sda" }).outcome = .ok () ∧ t.spec.inner { device := .text "/dev/sda" } = .ok inner ∧
      Visit.IsTakenFor ⟨n, inner⟩ (.int 1) ∧ ¬ Visit.IsTakenFor ⟨m, inner⟩ (.int 2) := by
  intro tree
  have hchecked : (Layout.read tree).outcome.toOption.bind (fun l => l.twoPartitions?.map (fun (t, n, m) =>
      ((t.create { device := .text "/dev/sda" }).outcome.toOption, n.spec.index, m.spec.index, m.children.isEmpty))) =
      some (some (), .int 1, .int 3, false) := by decide +kernel
  obtain ⟨l, hl, hchecked⟩ := Option.bind_eq_some_iff.1 hchecked
  obtain ⟨⟨t, n, m⟩, htable, hchecked⟩ := Option.map_eq_some_iff.1 hchecked
  simp only [Prod.mk.injEq] at hchecked
  obtain ⟨hcreate, hn, hm, hcontent⟩ := hchecked
  obtain ⟨ht, hspec, hchildren⟩ := Layout.eq_of_twoPartitions? htable
  replace hl := eq_ok_of_toOption hl
  replace hcreate := eq_ok_of_toOption hcreate
  obtain ⟨inner, _, hinner, -, -, hnumbers⟩ := partition_numbers_iff hl ht hspec hcreate
  refine ⟨l, t, n, m, inner, hl, ht, hspec, hchildren, hcreate, hinner, ?_, fun htaken => ?_⟩
  · exact (hnumbers 0 n (by rw [hchildren]; rfl)).2.2.2 (fun _ => hn)
  · have hsame := (hnumbers 1 m (by rw [hchildren]; rfl)).2.2.1 htaken (.inr (by simpa using hcontent))
    rw [hm] at hsame
    cases hsame

/-- The partition that is added first, and what lies in it is placed on the second. -/
theorem partition_taken_for_other_of_two_numbers :
    let tree : Value := .map [entry "disk" (.map [entry "a" (node "disk" [entry "device" (.text "/dev/sda"),
      entry "content" (node "table" [entry "partitions" (.list [
        node "partition" [entry "index" (.int 2), entry "content" (node "swap" [])],
        node "partition" [entry "index" (.int 1), entry "content" (node "swap" [])]])])])])]
    ∃ l t n m inner, (Layout.read tree).outcome = .ok l ∧ t ∈ l.nodes ∧ t.spec = .table .gpt ∧ t.children = [n, m] ∧
      (t.create { device := .text "/dev/sda" }).outcome = .ok () ∧ t.spec.inner { device := .text "/dev/sda" } = .ok inner ∧
      Visit.IsAddedAs ⟨n, inner⟩ (Creation.commands (t.create { device := .text "/dev/sda" }).record) 1 ∧
      Visit.IsFoundAt ⟨n, inner⟩ "/dev/sda2" ∧ ¬ Visit.IsTakenFor ⟨n, inner⟩ (.int 1) := by
  intro tree
  have hchecked : (Layout.read tree).outcome.toOption.bind (fun l => l.twoPartitions?.map (fun (t, n, m) =>
      ((t.create { device := .text "/dev/sda" }).outcome.toOption, n.spec.kind, n.spec.index, n.children.isEmpty))) =
      some (some (), .partition, .int 2, false) := by decide +kernel
  obtain ⟨l, hl, hchecked⟩ := Option.bind_eq_some_iff.1 hchecked
  obtain ⟨⟨t, n, m⟩, htable, hchecked⟩ := Option.map_eq_some_iff.1 hchecked
  simp only [Prod.mk.injEq] at hchecked
  obtain ⟨hcreate, hkind, hindex, hcontent⟩ := hchecked
  obtain ⟨ht, hspec, hchildren⟩ := Layout.eq_of_twoPartitions? htable
  replace hl := eq_ok_of_toOption hl
  replace hcreate := eq_ok_of_toOption hcreate
  obtain ⟨inner, hinner, hdevice, hbelow, -⟩ := Node.createAll_of_table hspec hcreate
  obtain ⟨d, -, hread⟩ := Layout.exists_declaration hl ht
  have hfound : Visit.IsFoundAt ⟨n, inner⟩ "/dev/sda2" :=
    Visit.isFoundAt_iff.2 ⟨hkind, "/dev/sda", hdevice, by
      dsimp only
      rw [hindex]
      exact eq_ok_of_toOption (by decide +kernel)⟩
  refine ⟨l, t, n, m, inner, hl, ht, hspec, hchildren, hcreate, hinner,
    Node.isAddedAs hspec (Node.fits_of_read hread).1 hcreate hinner (show t.children = [] ++ n :: [m] from hchildren),
    hfound, fun htaken => ?_⟩
  have hsame := htaken.2 (by simpa using hcontent) _ hfound
  dsimp only at hsame
  rw [hdevice] at hsame
  exact absurd (congrArg Except.toOption hsame) (by decide +kernel)

end Provision
