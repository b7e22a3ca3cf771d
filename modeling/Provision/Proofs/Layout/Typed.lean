import Provision.Proofs.Creation.Known
import Provision.Proofs.Layout.Placed
import Provision.Proofs.Mount.Facts
/-!
# Typed layouts

An option that is used as it is written can have any value.  In a typed layout each has the type that its use asks for
(`Spec.isTyped`).  Then every device that a walk hands down or records is a text (`Node.sound_of_mem_visits`), and a
node that is met gives its own part in every walk (`Spec.exists_mounting`, `Spec.exists_factsBefore`).  Only a creation
can end with it: where its commands say a number, the level of an array or that of a partition, which has too many
digits (`Visit.Sound.own`).
-/
namespace Provision

namespace Value

def isText : Value → Bool
  | text _ => true
  | _ => false

def isTextOrNull : Value → Bool
  | text _ | null => true
  | _ => false

def isInt : Value → Bool
  | int _ => true
  | _ => false

def isBool : Value → Bool
  | bool _ => true
  | _ => false

theorem isText_iff {v : Value} : v.isText = true ↔ ∃ s, v = .text s := by
  cases v <;> simp [isText]

theorem isKey_of_isText {v : Value} (h : v.isText = true) : v.isKey = true := by
  obtain ⟨s, rfl⟩ := isText_iff.1 h
  rfl

theorem isWritable_of_isText {v : Value} (h : v.isText = true) : v.isWritable = true := by
  obtain ⟨s, rfl⟩ := isText_iff.1 h
  rfl

theorem isWritable_of_isTextOrNull {v : Value} (h : v.isTextOrNull = true) : v.isWritable = true := by
  cases v with
  | null | text => rfl
  | _ => cases h

end Value

/-- What is written of a context has a text. -/
structure Context.Writable (ctx : Context) : Prop where
  device : ctx.device.isWritable = true
  group : ctx.group.isWritable = true
  pool : ctx.pool.isWritable = true

namespace Spec

/-- **Whether every option of a node has its type.** -/
def isTyped : Spec → Bool
  | disk name device => name.isText && device.isText
  | table _ => true
  | partition name partType fsType start stop index _ bootable =>
    name.isTextOrNull && partType.isText && fsType.isTextOrNull && start.isText && stop.isText && index.isInt &&
    bootable.isBool
  | filesystem format .. => format.isText
  | btrfs .. => true
  | subvolume name .. => name.isText
  | swap randomEncryption => randomEncryption.isBool
  | physicalVolume group => group.isText
  | volumeGroup name => name.isText
  | logicalVolume name size type _ => name.isText && size.isText && type.isTextOrNull
  | poolMember target => target.isText
  | pool name mode .. => name.isText && mode.isText
  | dataset name _ _ _ _ size => name.isText && size.isTextOrNull
  | arrayMember name => name.isText
  | array name level metadata => name.isText && level.isInt && metadata.isText
  | luks name keyFile _ => name.isText && keyFile.isTextOrNull
  | nodev fsType device .. => fsType.isText && device.isText

/-- The number that the commands of a node say: the level of an array, and that of a partition with a flag. -/
def saidNumber? : Spec → Option Value
  | array _ level _ => some level
  | partition _ _ _ _ _ index flags bootable => if bootable.isGiven || !flags.isEmpty then some index else none
  | _ => none

variable {spec : Spec} {ctx : Context}

theorem isText_of_membership? (h : spec.isTyped = true) {group : Group} {name : Value}
    (hm : spec.membership? = some (group, name)) : name.isText = true := by
  cases spec <;> cases hm <;> exact h

theorem isText_of_aggregate? (h : spec.isTyped = true) {group : Group} {name : Value}
    (ha : spec.aggregate? = some (group, name)) : name.isText = true := by
  cases spec <;> cases ha <;> simp only [isTyped, Bool.and_eq_true] at h
  case volumeGroup => exact h
  case pool => exact h.1
  case array => exact h.1.1

/-- What the commands of a typed node are written from has texts, but for the number that they say. -/
theorem requireWritable_written (h : spec.isTyped = true) (hctx : ctx.Writable) :
    Value.requireWritable (spec.written ctx) = Value.requireWritable spec.saidNumber?.toList := by
  obtain ⟨hdevice, hgroup, hpool⟩ := hctx
  refine Value.requireWritable_congr ?_
  simp only [Value.requireWritable_eq_ok_iff]
  cases spec
  case dataset name type options mountOptions mountpoint size =>
    cases type <;> simp_all [written, saidNumber?, isTyped, Value.isWritable_of_isText, Value.isWritable_of_isTextOrNull]
  case partition name partType fsType start stop index flags bootable =>
    have hlabel : (partitionLabel ctx name partType).isWritable = true := by
      simp only [isTyped, Bool.and_eq_true] at h
      unfold partitionLabel
      split <;> simp_all [Value.isWritable_of_isText, Value.isWritable_of_isTextOrNull]
    simp only [written, saidNumber?]
    split <;> simp_all [isTyped, Value.isWritable_of_isText, Value.isWritable_of_isTextOrNull]
  all_goals
    simp_all [written, saidNumber?, isTyped, Value.isWritable_of_isText, Value.isWritable_of_isTextOrNull]

theorem isWritable_of_announcement? (h : spec.isTyped = true) (hctx : ctx.Writable) (bare : Bool) :
    ∀ announced ∈ spec.announcement? ctx bare, ∀ v ∈ announced.1, v.isWritable = true := by
  have hdevice := hctx.device
  cases spec <;> cases bare <;> simp_all [announcement?, isTyped, Value.isWritable_of_isText]

theorem isWritable_mountWritten (h : spec.isTyped = true) (hctx : ctx.Writable) (mounted : Bool) :
    ∀ v ∈ spec.mountWritten ctx mounted, v.isWritable = true := by
  obtain ⟨hdevice, hgroup, hpool⟩ := hctx
  cases spec <;> cases mounted <;>
    simp_all [mountWritten, isTyped, Value.isWritable_of_isText, Value.isWritable_of_isTextOrNull]

theorem isWritable_factsWritten (h : spec.isTyped = true) (hctx : ctx.Writable) (mounted : Bool) :
    ∀ v ∈ spec.factsWritten ctx mounted, v.isWritable = true := by
  have hpool := hctx.pool
  cases spec <;> cases mounted <;> simp_all [factsWritten, isTyped, Value.isWritable_of_isText]

theorem isWritable_factsAfterWritten (h : spec.isTyped = true) : ∀ v ∈ spec.factsAfterWritten, v.isWritable = true := by
  cases spec <;> simp_all [factsAfterWritten, isTyped, Value.isWritable_of_isTextOrNull]

theorem isWritable_label (h : spec.isTyped = true) : spec.label.isWritable = true := by
  have hgiven (v w : Value) : (if v.isGiven then v else w).isWritable = if v.isGiven then v.isWritable else w.isWritable :=
    apply_ite ..
  have hnull : Value.null.isWritable = true := rfl
  cases spec <;> simp_all [label, isTyped, Value.isWritable_of_isText, Value.isWritable_of_isTextOrNull]

theorem writable_of_inner (h : spec.isTyped = true) (hctx : ctx.Writable) {inner : Context}
    (hinner : spec.inner ctx = .ok inner) :
    inner.Writable := by
  obtain ⟨hdevice, hgroup, hpool⟩ := hctx
  cases spec
  case partition =>
    obtain ⟨path, -, hinner⟩ := except_bind_eq_ok_iff.1 hinner
    cases hinner
    exact ⟨rfl, hgroup, hpool⟩
  all_goals
    cases hinner
    constructor <;> simp_all [isTyped, Value.isWritable_of_isText]

theorem exists_memberPaths {group : Group} {name : Value} (hname : name.isText = true)
    (hmembers : ∀ r ∈ ctx.members, r.device.isText = true) : ∃ paths, (memberPaths group name ctx).outcome = .ok paths := by
  obtain ⟨s, rfl⟩ := Value.isText_iff.1 hname
  have hcollect : (Recording.collect ctx.members group.name (.text s)).outcome =
      .ok (Recording.devicesOf ctx.members group.name (.text s)) := by
    cases hempty : (Recording.devicesOf ctx.members group.name (.text s)).isEmpty with
    | true =>
      simp only [Recording.collect, Value.isKey, hempty, if_true, Bool.not_true, Bool.false_eq_true, if_false]
      rfl
    | false => simp [Recording.collect, Value.isKey, hempty]
  obtain ⟨paths, hpaths⟩ : ∃ paths, ((Recording.devicesOf ctx.members group.name (.text s)).mapM
      (fun d => (liftM d.asText : Creation String))).outcome = .ok paths := by
    refine Traced.exists_outcome_mapM (fun d hd => ?_)
    obtain ⟨r, hr, rfl⟩ := List.mem_map.1 hd
    obtain ⟨s, hs⟩ := Value.isText_iff.1 (hmembers r (List.mem_filter.1 hr).1)
    exact ⟨s, by rw [hs]; rfl⟩
  exact ⟨paths, Traced.outcome_bind_eq_ok_iff.2 ⟨_, hcollect, Traced.outcome_bind_eq_ok_iff.2
    ⟨(), rfl, Traced.outcome_bind_eq_ok_iff.2 ⟨paths, hpaths, rfl⟩⟩⟩⟩

theorem exists_prepare (h : spec.isTyped = true) (hctx : ctx.Writable)
    (hmembers : ∀ r ∈ ctx.members, r.device.isText = true) (bare : Bool) :
    ∃ devices, (spec.prepare ctx bare).outcome = .ok devices := by
  unfold prepare
  cases hm : spec.membership? with
  | some m =>
    obtain ⟨group, name⟩ := m
    have hname := isText_of_membership? h hm
    have hwritten : Value.requireWritable [ctx.device, name] = .ok () :=
      Value.requireWritable_eq_ok_iff.2 (by simp [hctx.device, Value.isWritable_of_isText hname])
    have hrecord : (Recording.record ⟨group.name, name, ctx.device⟩).outcome = .ok ⟨group.name, name, ctx.device⟩ := by
      refine Traced.outcome_bind_eq_ok_iff.2 ⟨(), hwritten, Traced.outcome_bind_eq_ok_iff.2 ⟨(), rfl, ?_⟩⟩
      rw [if_pos (Value.isKey_of_isText hname)]
      rfl
    exact ⟨[], Traced.outcome_bind_eq_ok_iff.2 ⟨(), Traced.outcome_bind_eq_ok_iff.2 ⟨_, hrecord, rfl⟩, rfl⟩⟩
  | none =>
    cases ha : spec.aggregate? with
    | some a => exact exists_memberPaths (isText_of_aggregate? h ha) hmembers
    | none =>
      dsimp only
      cases ha : spec.announcement? ctx bare with
      | none => exact ⟨[], rfl⟩
      | some announced =>
        have hnamed := Value.requireWritable_eq_ok_iff.2 (isWritable_of_announcement? h hctx bare announced ha)
        exact ⟨[], Traced.outcome_bind_eq_ok_iff.2 ⟨(), hnamed, rfl⟩⟩

theorem exists_actions (h : spec.isTyped = true) (ctx : Context) (devices : List String) :
    ∃ as, spec.actions ctx devices = .ok as := by
  cases spec
  case subvolume =>
    obtain ⟨s, rfl⟩ := Value.isText_iff.1 h
    exact ⟨_, rfl⟩
  case logicalVolume =>
    simp only [isTyped, Bool.and_eq_true] at h
    obtain ⟨s, rfl⟩ := Value.isText_iff.1 h.1.2
    exact ⟨_, rfl⟩
  case pool =>
    simp only [isTyped, Bool.and_eq_true] at h
    obtain ⟨s, rfl⟩ := Value.isText_iff.1 h.2
    exact ⟨_, rfl⟩
  case dataset name type options mountOptions mountpoint size => cases type <;> exact ⟨_, rfl⟩
  all_goals exact ⟨_, rfl⟩

theorem exists_subvolumeMountpoint {name : Value} (h : name.isText = true) (mountpoint : Option String) (ctx : Context) :
    ∃ m, subvolumeMountpoint name mountpoint ctx = .ok m := by
  obtain ⟨s, rfl⟩ := Value.isText_iff.1 h
  unfold subvolumeMountpoint
  split <;> exact ⟨_, rfl⟩

theorem exists_mounting (h : spec.isTyped = true) (hbase : ∀ p ∈ spec.base? ctx, p.isText = true) :
    ∃ e, spec.mounting ctx = .ok e := by
  cases spec
  case subvolume name extraArgs mountOptions mountpoint =>
    obtain ⟨m, hm⟩ := exists_subvolumeMountpoint h mountpoint ctx
    exact ⟨_, by simp only [mounting, hm]; rfl⟩
  case swap =>
    obtain ⟨s, hs⟩ := Value.isText_iff.1 (hbase _ rfl)
    exact ⟨_, by simp only [mounting, hs]; rfl⟩
  all_goals exact ⟨_, rfl⟩

theorem exists_factsBefore (h : spec.isTyped = true) : ∃ facts, spec.factsBefore ctx = .ok facts := by
  cases spec
  case subvolume name extraArgs mountOptions mountpoint =>
    obtain ⟨m, hm⟩ := exists_subvolumeMountpoint h mountpoint ctx
    exact ⟨_, by simp only [factsBefore, hm]; rfl⟩
  all_goals exact ⟨_, rfl⟩

theorem exists_tools (h : spec.isTyped = true) : ∃ ts, spec.tools = .ok ts := by
  cases spec
  case filesystem =>
    exact ⟨_, if_pos (Value.isKey_of_isText h)⟩
  all_goals exact ⟨_, rfl⟩

theorem base?_below_of_text {P : Value → Prop} (htext : ∀ s, P (.text s)) {inner : Context}
    (hinner : spec.inner ctx = .ok inner)
    (hbase : ∀ p ∈ spec.base? ctx, P p) {c : Spec} (hc : spec.kind.holding.takes c.kind = true) :
      ∀ p ∈ c.base? inner, P p := by
  have hplaced {p : Value} (hp : p ∈ c.base? inner) : p = inner.device := by
    cases c
    case disk => cases spec <;> cases hc
    all_goals simp_all [base?]
  intro p hp
  obtain rfl := hplaced hp
  cases spec
  case disk | table | btrfs =>
    cases hinner
    exact hbase _ rfl
  case partition =>
    obtain ⟨path, -, hinner⟩ := except_bind_eq_ok_iff.1 hinner
    cases hinner
    exact htext _
  case logicalVolume | dataset | array | luks =>
    cases hinner
    exact htext _
  -- these hold nodes that are placed on no device
  case volumeGroup | pool =>
    have hnone : c.base? inner = none := by cases c <;> first | rfl | cases hc
    rw [hnone] at hp
    cases hp
  all_goals cases hc

end Spec

/-- **A visit whose parts succeed**: the node is typed, what is written of its context has a text, and its device and the
recorded members are texts. -/
structure Visit.Sound (v : Visit) : Prop where
  typed : v.node.spec.isTyped = true
  writable : v.ctx.Writable
  base : ∀ p ∈ v.node.spec.base? v.ctx, p.isText = true
  members : ∀ r ∈ v.ctx.members, r.device.isText = true

namespace Visit.Sound

variable {v : Visit}

/-- The creation of the node itself ends with the number that its commands say. -/
theorem own (h : v.Sound) : v.own.outcome = Value.requireWritable v.node.spec.saidNumber?.toList := by
  obtain ⟨devices, hdevices⟩ := Spec.exists_prepare h.typed h.writable h.members v.node.children.isEmpty
  obtain ⟨as, has⟩ := Spec.exists_actions h.typed v.ctx devices
  have hrun : (as.forM Creation.run).outcome = .ok () := by
    clear has
    induction as with
    | nil => rfl
    | cons a as ih => exact Traced.outcome_bind_eq_ok_iff.2 ⟨(), rfl, ih⟩
  rw [Visit.own, Spec.create]
  simp only [Traced.outcome_bind, Traced.outcome_liftM, hdevices, has, except_ok_bind, hrun,
    Spec.requireWritable_written h.typed h.writable]
  cases Value.requireWritable v.node.spec.saidNumber?.toList <;> rfl

theorem isText_of_recording? (h : v.Sound) {r : Recording} (hr : v.recording? = some r) : r.device.isText = true :=
  h.base _ (device_of_recording? hr)

end Visit.Sound

namespace Node

mutual

/-- **A walk meets nodes of its tree**, each on the device of the tree or on one whose path is a text. -/
theorem base?_of_mem_visits {P : Value → Prop} (htext : ∀ s, P (.text s)) : ∀ (n : Node) (ctx : Context), n.Fits →
    (∀ p ∈ n.spec.base? ctx, P p) → ∀ v ∈ n.visits ctx, v.node ∈ n.subnodes ∧ ∀ p ∈ v.node.spec.base? v.ctx, P p
  | ⟨key, spec, hooks, children⟩, ctx, ⟨hkinds, hfits⟩, hbase, v, hv => by
    rw [subnodes_eq]
    rw [visits_eq] at hv
    rcases List.mem_cons.1 hv with rfl | hv
    · exact ⟨List.mem_cons_self, hbase⟩
    · dsimp only at *
      split at hv
      · rename_i inner hhanded
        obtain ⟨-, hinner⟩ := Spec.handed?_eq_some_iff.1 hhanded
        obtain ⟨hmem, hv⟩ := base?_of_mem_visitsAll htext children inner hfits
          (fun c hc => Spec.base?_below_of_text htext hinner hbase (hkinds c hc)) v hv
        exact ⟨List.mem_cons_of_mem _ hmem, hv⟩
      · cases hv

theorem base?_of_mem_visitsAll {P : Value → Prop} (htext : ∀ s, P (.text s)) : ∀ (ns : List Node) (ctx : Context),
    (∀ n ∈ ns, n.Fits) → (∀ n ∈ ns, ∀ p ∈ n.spec.base? ctx, P p) →
    ∀ v ∈ visitsAll ns ctx, v.node ∈ subnodesAll ns ∧ ∀ p ∈ v.node.spec.base? v.ctx, P p
  | [], _, _, _, _, hv => absurd hv List.not_mem_nil
  | n :: ns, ctx, hfits, hbase, v, hv => by
    rw [subnodesAll, List.mem_append]
    rcases List.mem_append.1 hv with hv | hv
    · exact (base?_of_mem_visits htext n ctx (hfits n List.mem_cons_self) (hbase n List.mem_cons_self) v hv).imp_left .inl
    · exact (base?_of_mem_visitsAll htext ns ctx (fun m hm => hfits m (List.mem_cons_of_mem _ hm))
        (fun m hm => hbase m (List.mem_cons_of_mem _ hm)) v hv).imp_left .inr

end

mutual

/-- **What a typed tree hands down can be written**, if what it is given can be. -/
theorem writable_of_mem_visits : ∀ (n : Node) (ctx : Context), (∀ m ∈ n.subnodes, m.spec.isTyped = true) → ctx.Writable →
    ∀ v ∈ n.visits ctx, v.ctx.Writable
  | ⟨key, spec, hooks, children⟩, ctx, htyped, hctx, v, hv => by
    rw [subnodes_eq, List.forall_mem_cons] at htyped
    rw [visits_eq] at hv
    rcases List.mem_cons.1 hv with rfl | hv
    · exact hctx
    · dsimp only at *
      split at hv
      · rename_i inner hhanded
        obtain ⟨-, hinner⟩ := Spec.handed?_eq_some_iff.1 hhanded
        exact writable_of_mem_visitsAll children inner htyped.2 (Spec.writable_of_inner htyped.1 hctx hinner) v hv
      · cases hv

theorem writable_of_mem_visitsAll : ∀ (ns : List Node) (ctx : Context), (∀ m ∈ subnodesAll ns, m.spec.isTyped = true) →
    ctx.Writable → ∀ v ∈ visitsAll ns ctx, v.ctx.Writable
  | [], _, _, _, _, hv => absurd hv List.not_mem_nil
  | n :: ns, ctx, htyped, hctx, v, hv => by
    rw [subnodesAll, List.forall_mem_append] at htyped
    rcases List.mem_append.1 hv with hv | hv
    · exact writable_of_mem_visits n ctx htyped.1 hctx v hv
    · exact writable_of_mem_visitsAll ns ctx htyped.2 hctx v hv

end

/-- **All visits of a typed tree are sound**, if what it is given can be written and its device and the recorded members are
texts. -/
theorem sound_of_mem_visits (n : Node) (ctx : Context) (hfits : n.Fits) (htyped : ∀ m ∈ n.subnodes, m.spec.isTyped = true)
    (hctx : ctx.Writable) (hbase : ∀ p ∈ n.spec.base? ctx, p.isText = true)
    (hmembers : ∀ r ∈ ctx.members, r.device.isText = true) : ∀ v ∈ n.visits ctx, v.Sound := fun v hv => by
  obtain ⟨hmem, hbase⟩ := base?_of_mem_visits (P := fun p => p.isText = true) (fun _ => rfl) n ctx hfits hbase v hv
  exact ⟨htyped _ hmem, writable_of_mem_visits n ctx htyped hctx v hv, hbase,
    (keeps_of_mem_visits n ctx v hv).2.2 ▸ hmembers⟩

end Node

end Provision
