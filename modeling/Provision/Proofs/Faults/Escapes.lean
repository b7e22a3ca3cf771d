import Provision.Proofs.Layout.Declarations
/-!
# Faults that escape the checks of a layout

A layout that is not read is refused for what is wrong with it, or its reading ends in another fault: at a key that is
no text, at a type that nothing can be looked up by, at arguments with an open quotation, or at an integer of too many
digits that has to be written.  `Layout.Escapes` follows the reading to the first such place, past all that can be read
before it; these are exactly the layouts whose reading ends in another fault than a refusal (`escapes_iff`).
-/
namespace Provision

open Value (Entries entry node)

/-- The key of a declaration can be written, and its kind is the one that its place asks for. -/
structure Declaration.Typed (d : Declaration) (es : Entries) : Prop where
  raw : d.raw = .map es
  key : Value.requireWritable d.place.key.toList = .ok ()
  kind : Node.checkKind d.place.path d.place.kind.name es = .ok ()

/-- **Reading a declaration ends in a fault that is no refusal.** -/
inductive Declaration.Escapes : Declaration → Fault → Prop
  /-- The key cannot be written. -/
  | key {d : Declaration} {key : Value} (hkey : d.place.key = some key) (hw : key.isWritable = false) :
      Escapes d (.misuse .unwritable)
  /-- The value is no mapping, and cannot be quoted. -/
  | form {d : Declaration} (hkey : Value.requireWritable d.place.key.toList = .ok ()) (hform : ∀ es, d.raw ≠ .map es)
      (hw : d.raw.isWritable = false) : Escapes d (.layout d.place.path (.notNode d.place.kind.name d.raw))
  /-- The type is unknown, and cannot be quoted. -/
  | unknown {d : Declaration} {es : Entries} {fault : Fault} (hes : d.raw = .map es)
      (hkey : Value.requireWritable d.place.key.toList = .ok ())
      (hkind : Node.checkKind d.place.path d.place.kind.name es = .error fault)
      (hw : Value.areWritable fault.quoted = false) : Escapes d fault
  /-- The type cannot be looked up. -/
  | type {d : Declaration} {es : Entries} {v : Value} (hes : d.raw = .map es)
      (hkey : Value.requireWritable d.place.key.toList = .ok ()) (hv : Entries.get? es (.text "type") = some v)
      (hv' : v.isKey = false) : Escapes d (.misuse .unhashable)
  /-- The options that are not known cannot be listed. -/
  | option {d : Declaration} {es : Entries} {e : Value × Value} (htyped : d.Typed es) (he : e ∈ es)
      (htext : ∀ s, e.1 ≠ .text s) : Escapes d (.misuse .wrongOperand)
  /-- The arguments cannot be split. -/
  | arguments {d : Declaration} {es : Entries} {option : String} {cause : Shell.QuotingFault} (htyped : d.Typed es)
      (htext : ∀ e ∈ es, ∃ s, e.1 = .text s) (hreach : Spec.Reaches d.place ⟨d.place.path, es⟩ option .arguments)
      (hcause : Declared.Misquoted ⟨d.place.path, es⟩ option cause) : Escapes d (.badQuoting cause)
  /-- An option with a structure of its own cannot be written or quoted. -/
  | structured {d : Declaration} {es : Entries} {option : String} {reading : Reading} {f : Fault} (htyped : d.Typed es)
      (htext : ∀ e ∈ es, ∃ s, e.1 = .text s) (hreach : Spec.Reaches d.place ⟨d.place.path, es⟩ option reading)
      (hcheck : Declared.check ⟨d.place.path, es⟩ option reading = .error f)
      (hw : (Declared.getD ⟨d.place.path, es⟩ option .null).isWritable = false) : Escapes d f
  /-- The type of the content cannot be looked up. -/
  | content {d : Declaration} {es content : Entries} {f : DatasetType → TableFormat → Spec} {slot : Slot}
      (hes : d.raw = .map es) (hopening : d.opening es = .ok f) (hslot : d.place.kind.holding = .content slot)
      (hheld : d.held? = some (.map content)) (hkey : (Entries.field content "type").isKey = false) :
      Escapes d (.misuse .unhashable)
  /-- What is held is not what the node holds, and cannot be quoted. -/
  | held {d : Declaration} {es : Entries} {v : Value} {f : DatasetType → TableFormat → Spec} {fault : Fault}
      (hes : d.raw = .map es) (hopening : d.opening es = .ok f) (hheld : d.held? = some v)
      (hcheck : d.place.kind.holding.check d.place.path v = .error fault) (hw : Value.areWritable fault.quoted = false) :
      Escapes d fault
  /-- It happens further below, and all before can be read. -/
  | deeper {d b : Declaration} {es : Entries} {f : DatasetType → TableFormat → Spec} {before after : List Declaration}
      {fault : Fault} (hes : d.raw = .map es) (hopening : d.opening es = .ok f) (hbelow : d.below = before ++ b :: after)
      (hbefore : ∀ c ∈ before, ∃ n, c.read.outcome = .ok n) (hb : Escapes b fault) : Escapes d fault
  /-- The nodes below can be read; the number of one of them is no number or taken, and cannot be quoted. -/
  | numbers {d : Declaration} {es : Entries} {f : DatasetType → TableFormat → Spec} {nodes : List Node} {fault : Fault}
      (hes : d.raw = .map es) (hopening : d.opening es = .ok f)
      (hbelow : (d.below.mapM Declaration.read).outcome = .ok nodes)
      (hcollect : d.place.kind.holding.collect d.place.path nodes = .error fault)
      (hw : Value.areWritable fault.quoted = false) : Escapes d fault
  /-- The type of a dataset or the format of a table is unknown, and cannot be quoted. -/
  | finish {d : Declaration} {es : Entries} {f : DatasetType → TableFormat → Spec} {children : List Node} {fault : Fault}
      (hes : d.raw = .map es) (hopening : d.opening es = .ok f) (hbelow : d.nodesBelow.outcome = .ok children)
      (hfinish : Spec.finish d.place ⟨d.place.path, es⟩ f = .error fault) (hw : Value.areWritable fault.quoted = false) :
      Escapes d fault
  /-- A hook cannot be written. -/
  | hook {d : Declaration} {es : Entries} {f : DatasetType → TableFormat → Spec} {children : List Node} {spec : Spec}
      {hook : String} (hes : d.raw = .map es) (hopening : d.opening es = .ok f)
      (hbelow : d.nodesBelow.outcome = .ok children)
      (hfinish : Spec.finish d.place ⟨d.place.path, es⟩ f = .ok spec) (hhook : hook ∈ Kind.hookOptions)
      (hw : (Entries.field es hook).isWritable = false) : Escapes d (.misuse .unwritable)

/-- What cannot be written is not left out. -/
theorem Value.isGiven_of_not_writable {v : Value} (h : v.isWritable = false) : v.isGiven = true := by
  cases v with
  | int n =>
    have hpos := Double.pow10_pos Text.maxDigits
    refine bne_iff_ne.2 fun hn => ?_
    simp [isWritable, hn, hpos] at h
  | list xs | set xs => cases xs <;> simp_all [isWritable, isGiven]
  | map es => cases es <;> simp_all [isWritable, areEntriesWritable, isGiven]
  | pair k v => rfl
  | _ => cases h

namespace Kind.Holding

variable {path : String} {holding : Holding} {v : Value}

theorem check_of_mem {b : Declaration} (h : b ∈ holding.declarations path v) : holding.check path v = .ok () := by
  cases holding with
  | none => rfl
  | content slot =>
    simp only [declarations] at h
    split at h
    · rename_i kind hkind
      rw [check, hkind]
      rfl
    · cases h
  | partitions => cases v <;> first | rfl | cases h
  | named option kind => cases v <;> first | rfl | cases h

theorem failsIn_check : FailsIn (fun f => f.IsRefusal ∨ ∃ slot content, holding = .content slot ∧ v = .map content ∧
    (Entries.field content "type").isKey = false ∧ f = .misuse .unhashable) (holding.check path v) := by
  cases holding with
  | none => exact .ok ()
  | content slot =>
    refine FailsIn.map_iff.2 ((Node.failsIn_contentKind slot _ v).mono ?_)
    rintro f (hf | ⟨⟨es, hv, hkey⟩, hf⟩)
    · exact .inl hf
    · exact .inr ⟨slot, es, rfl, hv, hkey, hf⟩
  | partitions => exact (Node.failsIn_requireItems _ v).mono fun _ => .inl
  | named option kind => exact (Node.failsIn_requireEntries _ kind v).mono fun _ => .inl

theorem failsIn_collect (nodes : List Node) : FailsIn Fault.IsRefusal (holding.collect path nodes) := by
  cases holding with
  | partitions => exact FailsIn.map_iff.2 (Node.failsIn_checkIndices _ _ _ nodes)
  | none | content _ | named _ _ => exact .ok _

theorem collect_nil : holding.collect path [] = .ok [] := by
  cases holding <;> rfl

end Kind.Holding

namespace Declaration

variable {d : Declaration} {es : Entries} {f : DatasetType → TableFormat → Spec} {fault : Fault}

theorem escapes_of_key (h : Value.requireWritable d.place.key.toList = .error fault) : d.Escapes fault := by
  obtain ⟨hw, rfl⟩ := Value.requireWritable_eq_error_iff.1 h
  cases hplace : d.place.key with
  | none => simp [hplace] at hw
  | some key => exact .key hplace (by simpa [hplace] using hw)

theorem escapes_of_opening (hes : d.raw = .map es) (hf : ¬ fault.IsFlaw) (h : d.opening es = .error fault) :
    d.Escapes fault := by
  obtain h | ⟨_, hkey, h⟩ := except_bind_eq_error_iff.1 h
  · exact escapes_of_key h
  obtain h | ⟨_, hkind, h⟩ := except_bind_eq_error_iff.1 h
  · obtain hrefused | ⟨⟨v, hv, hv'⟩, rfl⟩ := Node.failsIn_checkKind _ _ _ _ h
    · exact .unknown hes hkey h (hrefused.not_writable hf)
    · exact .type hes hkey hv hv'
  have htyped : d.Typed es := ⟨hes, hkey, hkind⟩
  obtain h | ⟨unknown, hunknown, h⟩ := except_bind_eq_error_iff.1 h
  · obtain ⟨⟨e, he, htext⟩, rfl⟩ := Node.failsIn_unknownKeys _ _ _ h
    exact .option htyped he htext
  have htext : ∀ e ∈ es, ∃ s, e.1 = .text s := fun e he => by
    by_contra htext
    rw [Node.unknownKeys_of_no_text he fun s hs => htext ⟨s, hs⟩] at hunknown
    cases hunknown
  obtain ⟨option, reading, hreach, hcheck⟩ := Spec.read_eq_error_iff.1 h
  obtain ⟨rfl, cause, hcause, rfl⟩ | hrefusal := Declared.failsIn_check _ _ _ _ hcheck
  · exact .arguments htyped htext hreach hcause
  · refine .structured htyped htext hreach hcheck (Bool.eq_false_iff.2 fun hw => hf ?_)
    rw [Fault.IsFlaw, hrefusal, Value.refusal_eq_layout_iff, hw]

theorem escapes_of_nodesBelow (hes : d.raw = .map es) (hopening : d.opening es = .ok f) (hf : ¬ fault.IsFlaw)
    (h : d.nodesBelow.outcome = .error fault) (ih : ∀ b ∈ d.below, b.read.outcome = .error fault → b.Escapes fault) :
    d.Escapes fault := by
  cases hv : d.held? with
  | none =>
    rw [nodesBelow, hv] at h
    cases h
  | some v =>
    rw [nodesBelow_of_held? hv] at h
    simp only [Traced.outcome_bind_eq_error_iff, Traced.outcome_liftM] at h
    obtain h | ⟨_, -, h | ⟨nodes, hnodes, h⟩⟩ := h
    · obtain hrefused | ⟨slot, content, hslot, rfl, hkey, rfl⟩ := Kind.Holding.failsIn_check _ h
      · exact .held hes hopening hv h (hrefused.not_writable hf)
      · exact .content hes hopening hslot hv hkey
    · obtain ⟨before, b, after, hbelow, hbefore, hb⟩ := Traced.outcome_mapM_eq_error_iff.1 h
      exact .deeper hes hopening hbelow hbefore (ih b (hbelow ▸ List.mem_append_right before List.mem_cons_self) hb)
    · exact .numbers hes hopening hnodes h ((Kind.Holding.failsIn_collect nodes _ h).not_writable hf)

theorem outcome_read_of_not_map (h : ∀ es, d.raw ≠ .map es) : d.read.outcome = (do
    Value.requireWritable d.place.key.toList
    .error (.layout d.place.path (.notNode d.place.kind.name d.raw))) := by
  obtain ⟨raw, place⟩ := d
  rw [read, Node.read.eq_def]
  cases raw with
  | map es => exact absurd rfl (h es)
  | _ => simp only [Traced.outcome_bind, Traced.outcome_liftM, Traced.outcome_fail]

theorem escapes_of_read_eq_error {d : Declaration} (hf : ¬ fault.IsFlaw) (h : d.read.outcome = .error fault) :
    d.Escapes fault := by
  by_cases hmap : ∃ es, d.raw = .map es
  · obtain ⟨es, hes⟩ := hmap
    simp only [outcome_read hes, except_bind_eq_error_iff] at h
    obtain h | ⟨f, hopening, h | ⟨children, hbelow, h | ⟨spec, hfinish, h | ⟨_, -, h⟩⟩⟩⟩ := h
    · exact escapes_of_opening hes hf h
    · refine escapes_of_nodesBelow hes hopening hf h fun b hb hread => ?_
      have hlt := sizeOf_lt_of_mem_below hb
      exact escapes_of_read_eq_error hf hread
    · exact .finish hes hopening hbelow h ((Spec.failsIn_finish _ _ _ _ h).not_writable hf)
    · obtain ⟨hook, hhook, hw, rfl⟩ := Hooks.check_eq_error_iff.1 h
      exact .hook hes hopening hbelow hfinish hhook hw
    · cases h
  · have hform := not_exists.1 hmap
    rw [outcome_read_of_not_map hform, except_bind_eq_error_iff] at h
    obtain h | ⟨_, hkey, h⟩ := h
    · exact escapes_of_key h
    · obtain rfl := Except.error.inj h
      exact .form hkey hform (by simpa [Flaw.quoted] using hf)
termination_by sizeOf d.raw

theorem Escapes.fault_cases (h : d.Escapes fault) : fault = .misuse .unhashable ∨ fault = .misuse .wrongOperand ∨
    (∃ cause, fault = .badQuoting cause) ∨ fault.kind = .misuse .unwritable := by
  induction h with
  | type | content => exact .inl rfl
  | option => exact .inr (.inl rfl)
  | arguments => exact .inr (.inr (.inl ⟨_, rfl⟩))
  | key | hook => exact .inr (.inr (.inr rfl))
  | form _ _ hw => exact .inr (.inr (.inr (Fault.kind_of_not_writable (by simpa [Fault.quoted, Flaw.quoted] using hw))))
  | unknown _ _ _ hw | held _ _ _ _ hw | numbers _ _ _ _ hw | finish _ _ _ _ hw =>
    exact .inr (.inr (.inr (Fault.kind_of_not_writable hw)))
  | structured _ _ _ hcheck hw =>
    obtain ⟨-, cause, -, rfl⟩ | hrefusal := Declared.failsIn_check _ _ _ _ hcheck
    · exact .inr (.inr (.inl ⟨cause, rfl⟩))
    · exact .inr (.inr (.inr (hrefusal.trans (Value.refusal_of_not_writable hw))))
  | deeper _ _ _ _ _ ih => exact ih

theorem Escapes.not_isFlaw (h : d.Escapes fault) : ¬ fault.IsFlaw := by
  obtain rfl | rfl | ⟨cause, rfl⟩ | hkind := h.fault_cases
  · simp
  · simp
  · simp [Fault.isFlaw_iff, Fault.subject]
  · simp [Fault.IsFlaw, hkind]

theorem outcome_read_of_opening (hes : d.raw = .map es) (h : d.opening es = .error fault) :
    d.read.outcome = .error fault := by
  rw [outcome_read hes, h]
  rfl

theorem outcome_read_of_nodesBelow (hes : d.raw = .map es) (hopening : d.opening es = .ok f)
    (h : d.nodesBelow.outcome = .error fault) : d.read.outcome = .error fault := by
  rw [outcome_read hes, hopening, h]
  rfl

theorem outcome_nodesBelow_of_mem {b : Declaration} (h : b ∈ d.below) : d.nodesBelow.outcome = (do
    let nodes ← (d.below.mapM read).outcome
    d.place.kind.holding.collect d.place.path nodes) := by
  cases hv : d.held? with
  | none => simp [below, hv] at h
  | some v =>
    have hcheck : d.place.kind.holding.check d.place.path v = .ok () :=
      Kind.Holding.check_of_mem (by simpa only [below, hv] using h)
    rw [nodesBelow_of_held? hv, hcheck, Traced.liftM_ok_bind, Traced.outcome_bind]
    rfl

namespace Typed

theorem opening_eq (h : d.Typed es) : d.opening es = (do
    let _ ← Node.unknownKeys es ("type" :: d.place.kind.options ++ Kind.hookOptions)
    Spec.read d.place ⟨d.place.path, es⟩) := by
  rw [opening, h.key, h.kind]
  rfl

theorem opening_of_check (h : d.Typed es) (htext : ∀ e ∈ es, ∃ s, e.1 = .text s) {option : String} {reading : Reading}
    (hreach : Spec.Reaches d.place ⟨d.place.path, es⟩ option reading)
    (hcheck : Declared.check ⟨d.place.path, es⟩ option reading = .error fault) : d.opening es = .error fault := by
  rw [h.opening_eq]
  cases hunknown : Node.unknownKeys es ("type" :: d.place.kind.options ++ Kind.hookOptions) with
  | error g =>
    obtain ⟨⟨e, he, hno⟩, -⟩ := Node.failsIn_unknownKeys _ _ _ hunknown
    obtain ⟨s, hs⟩ := htext e he
    exact absurd hs (hno s)
  | ok unknown => exact Spec.read_eq_error_iff.2 ⟨option, reading, hreach, hcheck⟩

end Typed

/-- **The faults of a declaration** that are no refusals are those that escape. -/
theorem outcome_read_eq_error_iff (hf : ¬ fault.IsFlaw) : d.read.outcome = .error fault ↔ d.Escapes fault := by
  refine ⟨escapes_of_read_eq_error hf, fun h => ?_⟩
  induction h with
  | @key d key hkey hw =>
    have hrequire : Value.requireWritable d.place.key.toList = .error (.misuse .unwritable) :=
      Value.requireWritable_eq_error_iff.2 ⟨by simpa [hkey] using hw, rfl⟩
    by_cases hmap : ∃ es, d.raw = .map es
    · obtain ⟨es, hes⟩ := hmap
      exact outcome_read_of_opening hes (by rw [opening, hrequire]; rfl)
    · rw [outcome_read_of_not_map (not_exists.1 hmap), hrequire]
      rfl
  | form hkey hform hw =>
    rw [outcome_read_of_not_map hform, hkey]
    rfl
  | unknown hes hkey hkind =>
    refine outcome_read_of_opening hes ?_
    rw [opening, hkey, hkind]
    rfl
  | type hes hkey hv hv' =>
    refine outcome_read_of_opening hes ?_
    rw [opening, hkey, Node.checkKind_of_no_key hv hv']
    rfl
  | option htyped he htext =>
    refine outcome_read_of_opening htyped.raw ?_
    rw [htyped.opening_eq, Node.unknownKeys_of_no_text he htext]
    rfl
  | arguments htyped htext hreach hcause =>
    exact outcome_read_of_opening htyped.raw (htyped.opening_of_check htext hreach (Declared.check_of_misquoted hcause))
  | structured htyped htext hreach hcheck =>
    exact outcome_read_of_opening htyped.raw (htyped.opening_of_check htext hreach hcheck)
  | content hes hopening hslot hheld hkey =>
    refine outcome_read_of_nodesBelow hes hopening ?_
    rw [nodesBelow_of_held? hheld, hslot, Traced.outcome_bind, Traced.outcome_liftM, Kind.Holding.check,
      Node.contentKind_of_no_key hkey]
    rfl
  | held hes hopening hheld hcheck =>
    refine outcome_read_of_nodesBelow hes hopening ?_
    rw [nodesBelow_of_held? hheld, Traced.outcome_bind, Traced.outcome_liftM, hcheck]
    rfl
  | @deeper d b es f before after fault hes hopening hbelow hbefore _ ih =>
    refine outcome_read_of_nodesBelow hes hopening ?_
    rw [outcome_nodesBelow_of_mem (hbelow ▸ List.mem_append_right before List.mem_cons_self), except_bind_eq_error_iff]
    exact .inl (Traced.outcome_mapM_eq_error_iff.2 ⟨before, b, after, hbelow, hbefore, ih hf⟩)
  | @numbers d es f nodes fault hes hopening hbelow hcollect =>
    refine outcome_read_of_nodesBelow hes hopening ?_
    -- A collection of nothing is as it should be.
    cases hlist : d.below with
    | nil =>
      obtain rfl : [] = nodes := by simpa [hlist] using hbelow
      rw [Kind.Holding.collect_nil] at hcollect
      cases hcollect
    | cons b after =>
      rw [outcome_nodesBelow_of_mem (hlist ▸ List.mem_cons_self), hbelow, except_ok_bind, hcollect]
  | finish hes hopening hbelow hfinish =>
    rw [outcome_read hes, hopening, except_ok_bind, hbelow, except_ok_bind, hfinish]
    rfl
  | hook hes hopening hbelow hfinish hhook hw =>
    rw [outcome_read hes, hopening, except_ok_bind, hbelow, except_ok_bind, hfinish, except_ok_bind,
      Hooks.check_eq_error_iff.2 ⟨_, hhook, hw, rfl⟩]
    rfl

end Declaration

/-- **Reading a layout ends in a fault that is no refusal.** -/
inductive Layout.Escapes (tree : Value) : Fault → Prop
  /-- The groups that are not known cannot be listed. -/
  | group {es : Entries} {e : Value × Value} (hes : unwrap tree = .map es) (he : e ∈ es) (htext : ∀ s, e.1 ≠ .text s) :
      Escapes tree (.misuse .wrongOperand)
  /-- The devices of a group are no mapping, and cannot be quoted. -/
  | devices {es : Entries} {groups groups' : List Group} {g : Group} (hes : unwrap tree = .map es)
      (hnamed : ∀ e ∈ es, ∃ g : Group, e.1 = .text g.name) (hall : Group.all = groups ++ g :: groups')
      (hgroups : ∀ h ∈ groups, ∃ ns, (readGroup es h).outcome = .ok ns)
      (hform : ∀ named, Entries.field es g.name ≠ .map named)
      (hw : (Entries.field es g.name).isWritable = false) :
      Escapes tree (.layout g.name (.notDevices (Entries.field es g.name)))
  /-- It happens in a device, and all before can be read. -/
  | device {es : Entries} {groups groups' : List Group} {g : Group} {before after : Entries} {e : Value × Value}
      {fault : Fault}
      (hes : unwrap tree = .map es) (hnamed : ∀ e ∈ es, ∃ g : Group, e.1 = .text g.name)
      (hall : Group.all = groups ++ g :: groups') (hgroups : ∀ h ∈ groups, ∃ ns, (readGroup es h).outcome = .ok ns)
      (hentries : groupEntries es g = before ++ e :: after)
      (hbefore : ∀ b ∈ before, ∃ n, (g.declaration b).read.outcome = .ok n) (he : (g.declaration e).Escapes fault) :
      Escapes tree fault

namespace Layout

variable {tree : Value} {es : Entries} {f : Fault}

theorem readGroup_of_not_writable {g : Group} (hform : ∀ named, Entries.field es g.name ≠ .map named)
    (hw : (Entries.field es g.name).isWritable = false) :
    readGroup es g = .fail (.layout g.name (.notDevices (Entries.field es g.name))) := by
  simp only [readGroup, Value.isGiven_of_not_writable hw, Bool.not_true, Bool.false_eq_true, if_false]

theorem readGroup_eq_error_iff {g : Group} (hf : ¬ f.IsFlaw) : (readGroup es g).outcome = .error f ↔
    ((∀ named, Entries.field es g.name ≠ .map named) ∧ (Entries.field es g.name).isWritable = false ∧
      f = .layout g.name (.notDevices (Entries.field es g.name))) ∨
    ∃ before e after, groupEntries es g = before ++ e :: after ∧
    (∀ b ∈ before, ∃ n, (g.declaration b).read.outcome = .ok n) ∧
      (g.declaration e).Escapes f := by
  have hmapM : ((groupEntries es g).mapM (readEntry g)).outcome = .error f ↔
      ∃ before e after, groupEntries es g = before ++ e :: after ∧
        (∀ b ∈ before, ∃ n, (g.declaration b).read.outcome = .ok n) ∧ (g.declaration e).Escapes f := by
    simp only [Traced.outcome_mapM_eq_error_iff, ← Declaration.outcome_read_eq_error_iff hf]
    rfl
  rw [← hmapM]
  obtain ⟨hrefused, hentries⟩ | hread := readGroup_eq es g
  · rw [hrefused, hentries]
    constructor
    · intro h
      obtain rfl := Except.error.inj h
      have hw : (Entries.field es g.name).isWritable = false := by simpa [Flaw.quoted] using hf
      refine .inl ⟨fun named hnamed => ?_, hw, rfl⟩
      rw [groupEntries, hnamed] at hentries
      simp [hnamed, show named = [] from hentries, Value.isWritable, Value.areEntriesWritable] at hw
    · rintro (⟨-, -, rfl⟩ | h)
      · rfl
      · cases h
  · rw [hread, Traced.outcome_map, except_map_eq_error_iff]
    refine ⟨.inr, fun h => h.resolve_left ?_⟩
    rintro ⟨hform, hw, -⟩
    have hrefused := congrArg Traced.outcome (readGroup_of_not_writable hform hw)
    rw [hread, groupEntries] at hrefused
    split at hrefused
    · exact hform _ ‹_›
    · cases hrefused

theorem unknownKeys_eq_nil_iff {known : List String} :
    Node.unknownKeys es known = .ok [] ↔ ∀ e ∈ es, ∃ s ∈ known, e.1 = .text s := by
  have hnil : es.filterMap (fun e => Node.unknownKey? known e.1) = [] ↔ ∀ e ∈ es, ∃ s ∈ known, e.1 = .text s := by
    rw [List.filterMap_eq_nil_iff]
    refine forall₂_congr fun e _ => ?_
    cases e.1 <;> simp [Node.unknownKey?]
  rw [Node.unknownKeys_eq, ← hnil]
  dsimp only
  generalize es.filterMap (fun e => Node.unknownKey? known e.1) = unknown
  constructor
  · intro h
    split at h
    · cases h
    · rename_i hsome
      have hsorted := Except.ok.inj h
      rw [← List.length_eq_zero_iff, List.length_mergeSort, List.length_eq_zero_iff, List.filterMap_eq_nil_iff] at hsorted
      refine List.eq_nil_iff_forall_not_mem.2 fun u hu => hsome (List.any_eq_true.2 ⟨u, hu, ?_⟩)
      exact Option.isNone_iff_eq_none.2 (hsorted u hu)
  · rintro rfl
    simp

/-- Reading a layout: its groups have to be known, then they are read in order. -/
theorem outcome_read_eq_error_iff (hes : unwrap tree = .map es) (hf : ¬ f.IsFlaw) : (read tree).outcome = .error f ↔
    (∃ e ∈ es, ∀ s, e.1 ≠ .text s) ∧ f = .misuse .wrongOperand ∨
    (∀ e ∈ es, ∃ g : Group, e.1 = .text g.name) ∧ ∃ groups g groups', Group.all = groups ++ g :: groups' ∧
      (∀ h ∈ groups, ∃ ns, (readGroup es h).outcome = .ok ns) ∧ (readGroup es g).outcome = .error f := by
  have hnamed : Node.unknownKeys es (Group.all.map Group.name) = .ok [] ↔ ∀ e ∈ es, ∃ g : Group, e.1 = .text g.name := by
    rw [unknownKeys_eq_nil_iff]
    refine forall₂_congr fun e _ => ⟨fun ⟨s, hs, he⟩ => ?_, fun ⟨g, he⟩ => ⟨_, List.mem_map_of_mem g.mem_all, he⟩⟩
    obtain ⟨g, -, rfl⟩ := List.mem_map.1 hs
    exact ⟨g, he⟩
  have hgroups : (Group.all.mapM (fun g => do
        let nodes ← readGroup es g
        return (g, nodes)) : Logged (List (Group × List Node))).outcome = .error f ↔
      ∃ groups g groups', Group.all = groups ++ g :: groups' ∧ (∀ h ∈ groups, ∃ ns, (readGroup es h).outcome = .ok ns) ∧
        (readGroup es g).outcome = .error f := by
    have hpaired (g : Group) : (∃ gn, (do let nodes ← readGroup es g; pure (g, nodes) : Logged (Group × List Node)).outcome =
        .ok gn) ↔ ∃ ns, (readGroup es g).outcome = .ok ns := by
      simp only [Traced.outcome_bind_eq_ok_iff, Traced.outcome_pure, Except.ok.injEq]
      exact ⟨fun ⟨_, ns, hns, _⟩ => ⟨ns, hns⟩, fun ⟨ns, hns⟩ => ⟨_, ns, hns, rfl⟩⟩
    simp only [Traced.outcome_mapM_eq_error_iff, hpaired, Traced.outcome_bind_eq_error_iff, Traced.outcome_pure,
      reduceCtorEq, and_false, exists_false, or_false]
  rw [← hnamed, ← hgroups]
  simp only [read, hes, Traced.outcome_bind_eq_error_iff, Traced.outcome_liftM]
  constructor
  · rintro (h | ⟨unknown, hunknown, h⟩)
    · exact .inl (Node.failsIn_unknownKeys _ _ _ h)
    · cases unknown with
      | nil =>
        rw [List.isEmpty_nil, Bool.not_true, if_neg Bool.false_ne_true, Traced.outcome_bind_eq_error_iff] at h
        obtain h | ⟨groups, -, h⟩ := h
        · exact .inr ⟨hunknown, h⟩
        · cases h
      | cons =>
        obtain rfl := Except.error.inj h
        exact absurd (Fault.isFlaw_unknownGroups _) hf
  · rintro (⟨⟨e, he, htext⟩, rfl⟩ | ⟨hknown, h⟩)
    · exact .inl (Node.unknownKeys_of_no_text he htext _)
    · refine .inr ⟨[], hknown, ?_⟩
      rw [List.isEmpty_nil, Bool.not_true, if_neg Bool.false_ne_true, Traced.outcome_bind_eq_error_iff]
      exact .inl h

theorem Escapes.fault_cases (h : Escapes tree f) : f = .misuse .unhashable ∨ f = .misuse .wrongOperand ∨
    (∃ cause, f = .badQuoting cause) ∨ f.kind = .misuse .unwritable := by
  cases h with
  | group => exact .inr (.inl rfl)
  | devices _ _ _ _ _ hw =>
    exact .inr (.inr (.inr (Fault.kind_of_not_writable (by simpa [Fault.quoted, Flaw.quoted] using hw))))
  | device _ _ _ _ _ _ he => exact he.fault_cases

theorem Escapes.not_isFlaw (h : Escapes tree f) : ¬ f.IsFlaw := by
  cases h with
  | group => simp
  | devices _ _ _ _ _ hw => simpa [Flaw.quoted] using hw
  | device _ _ _ _ _ _ he => exact he.not_isFlaw

theorem read_eq_error_iff_escapes (hf : ¬ f.IsFlaw) : (read tree).outcome = .error f ↔ Escapes tree f := by
  constructor
  · intro h
    cases hes : unwrap tree with
    | map es =>
      obtain ⟨⟨e, he, htext⟩, rfl⟩ | ⟨hnamed, groups, g, groups', hall, hgroups, hg⟩ :=
        (outcome_read_eq_error_iff hes hf).1 h
      · exact .group hes he htext
      · obtain ⟨hform, hw, rfl⟩ | ⟨before, e, after, hentries, hbefore, he⟩ := (readGroup_eq_error_iff hf).1 hg
        · exact .devices hes hnamed hall hgroups hform hw
        · exact .device hes hnamed hall hgroups hentries hbefore he
    | _ =>
      rw [read, hes] at h
      obtain rfl := Except.error.inj h
      exact absurd (Fault.isFlaw_notLayout _) hf
  · intro h
    cases h with
    | group hes he htext => exact (outcome_read_eq_error_iff hes hf).2 (.inl ⟨⟨_, he, htext⟩, rfl⟩)
    | devices hes hnamed hall hgroups hform hw =>
      exact (outcome_read_eq_error_iff hes hf).2 (.inr ⟨hnamed, _, _, _, hall, hgroups,
        (readGroup_eq_error_iff hf).2 (.inl ⟨hform, hw, rfl⟩)⟩)
    | device hes hnamed hall hgroups hentries hbefore he =>
      exact (outcome_read_eq_error_iff hes hf).2 (.inr ⟨hnamed, _, _, _, hall, hgroups,
        (readGroup_eq_error_iff hf).2 (.inr ⟨_, _, _, hentries, hbefore, he⟩)⟩)

end Layout

/-- **Which layouts are neither read nor refused**: exactly those in which the reading meets a key that is no text, a
type that nothing can be looked up by, arguments that cannot be split, or an integer that cannot be written where it has
to be, before anything else is found wrong. -/
theorem escapes_iff (tree : Value) :
    (∀ f, (Layout.read tree).outcome = .error f ∧ f.kind ≠ .layout ↔ Layout.Escapes tree f) ∧
      (∀ f, Layout.Escapes tree f → f = .misuse .unhashable ∨ f = .misuse .wrongOperand ∨ (∃ cause, f = .badQuoting cause) ∨
        f.kind = .misuse .unwritable) ∧
      ((∃ l, (Layout.read tree).outcome = .ok l) ∨ (∃ f, (Layout.read tree).outcome = .error f ∧ f.kind = .layout) ↔
        ¬ ∃ f, Layout.Escapes tree f) := by
  have hiff (f : Fault) : (Layout.read tree).outcome = .error f ∧ f.kind ≠ .layout ↔ Layout.Escapes tree f := by
    change (Layout.read tree).outcome = .error f ∧ ¬ f.IsFlaw ↔ _
    exact ⟨fun ⟨h, hf⟩ => (Layout.read_eq_error_iff_escapes hf).1 h,
      fun h => ⟨(Layout.read_eq_error_iff_escapes h.not_isFlaw).2 h, h.not_isFlaw⟩⟩
  refine ⟨hiff, fun f h => h.fault_cases, ?_⟩
  simp only [← hiff]
  cases (Layout.read tree).outcome with
  | ok l => simp
  | error f => simp

/-- A type that is a list, an option that is a number, arguments with an open quotation: none of the three layouts is
read, and none is refused. -/
theorem fault_escapes_of_listed_type :
    let layout (options : Entries) : Value :=
      .map [entry "disk" (.map [entry "a" (.map (entry "device" (.text "/dev/sda") :: options))])]
    (∃ f, (Layout.read (layout [entry "type" (.list [.text "disk"])])).outcome = .error f ∧ f.kind = .misuse .unhashable) ∧
      (∃ f, (Layout.read (layout [(.int 1, .bool true)])).outcome = .error f ∧ f.kind = .misuse .wrongOperand) ∧
      ∃ f, (Layout.read (layout [entry "content"
        (node "btrfs" [entry "extraArgs" (.text "--label it's")])])).outcome = .error f ∧
        f.kind = .value := by
  intro layout
  have hfault {tree : Value} {c : Fault.Class}
      (h : (match (Layout.read tree).outcome with | .ok _ => none | .error f => some f.kind) = some c) :
      ∃ f, (Layout.read tree).outcome = .error f ∧ f.kind = c := by
    split at h
    · cases h
    · exact ⟨_, ‹_›, Option.some.inj h⟩
  exact ⟨hfault (by decide +kernel), hfault (by decide +kernel), hfault (by decide +kernel)⟩

end Provision
