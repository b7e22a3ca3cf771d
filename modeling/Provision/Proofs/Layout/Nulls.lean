import Provision.Proofs.Faults.Escapes
import Provision.Proofs.Layout.Kept
import Provision.Proofs.Layout.Rewritten
import Provision.Value.Identity
/-!
# Keys without a value

An option, a hook and the type that a content slot asks for count as absent where null stands under their key.  The type of a
node whose kind its place implies is looked up in another way: a null is a type there, and an unknown one.  `null_absent_iff`
says for every key of a mapping when leaving it out is noticed.
-/
namespace Provision

open Value (Entries entry node)

/-- **A key without a value is left out** of a mapping; a name is there only once. -/
inductive Value.Entries.LeavesOut (key : Value) : Entries → Entries → Prop
  | intro (before after : Entries) (hother : ∀ s, key = .text s → ∀ e ∈ before ++ after, e.1 ≠ .text s) :
      LeavesOut key (before ++ (key, .null) :: after) (before ++ after)

/-- One mapping in the place of another, but not where the key is the type and the place implies the kind. -/
def Value.Entries.Unnoticed (key : Value) (es fs : Entries) (typing : Typing) (gs hs : Entries) : Prop :=
  gs = es ∧ hs = fs ∧ (key = .text "type" → typing = .declared)

namespace Value.Entries.LeavesOut

variable {key : Value} {s : String} {es fs : Entries}

theorem get?_left (h : es.LeavesOut (.text s) fs) : get? es (.text s) = some .null := by
  obtain ⟨before, after, hother⟩ := h
  have hbefore : ∀ e ∈ before, ¬ same (.text s) e.1 = true := fun e he hsame =>
    hother s rfl e (List.mem_append_left after he) (same_text_iff.1 hsame)
  rw [get?, List.find?_append, List.find?_eq_none.2 hbefore]
  simp [same_text_iff]

theorem get?_right (h : es.LeavesOut (.text s) fs) : get? fs (.text s) = none := by
  obtain ⟨before, after, hother⟩ := h
  have hnone : ∀ e ∈ before ++ after, ¬ same (.text s) e.1 = true := fun e he hsame =>
    hother s rfl e he (same_text_iff.1 hsame)
  rw [get?, List.find?_eq_none.2 hnone]
  rfl

theorem get?_of_ne (h : es.LeavesOut key fs) (hne : key ≠ .text s) : get? fs (.text s) = get? es (.text s) := by
  obtain ⟨before, after, -⟩ := h
  have hkey : ¬ same (.text s) key = true := fun hsame => hne (same_text_iff.1 hsame)
  simp [get?, List.find?_append, hkey]

theorem field_eq (h : es.LeavesOut key fs) (s : String) : field fs s = field es s := by
  by_cases hkey : key = .text s
  · subst hkey
    rw [field, field, h.get?_left, h.get?_right]
    rfl
  · rw [field, field, h.get?_of_ne hkey]

/-- Where keys cannot be listed, none of them is a name that was left out. -/
theorem unknownKeys_eq (h : es.LeavesOut (.text s) fs) (known : List String) :
    (fun _ => ()) <$> Node.unknownKeys fs known = (fun _ => ()) <$> Node.unknownKeys es known := by
  have hlisted : (fs.filterMap (fun e => Node.unknownKey? known e.1)).any Option.isNone =
      (es.filterMap (fun e => Node.unknownKey? known e.1)).any Option.isNone := by
    obtain ⟨before, after, -⟩ := h
    have hname : ([(Value.text s, Value.null)].filterMap (fun e => Node.unknownKey? known e.1)).any Option.isNone =
        false := by
      by_cases hs : s ∈ known <;> simp [Node.unknownKey?, hs]
    rw [List.append_cons, List.filterMap_append, List.filterMap_append, List.filterMap_append, List.any_append,
      List.any_append, List.any_append, hname, Bool.or_false]
  rw [Node.unknownKeys_eq, Node.unknownKeys_eq]
  dsimp only
  rw [hlisted]
  split <;> rfl

end Value.Entries.LeavesOut

theorem Value.harmless_unnoticed {s : String} {es fs : Entries} (h : es.LeavesOut (.text s) fs) :
    Harmless (Entries.Unnoticed (.text s) es fs) where
  field := by
    rintro _ _ _ ⟨rfl, rfl, -⟩
    exact h.field_eq
  type := by
    rintro _ _ ⟨rfl, rfl, himplied⟩
    exact h.get?_of_ne fun hkey => by cases himplied hkey
  keys := by
    rintro _ _ _ ⟨rfl, rfl, -⟩
    exact h.unknownKeys_eq

namespace Node

/-- **Two readings agree**: in a node, or in a refusal. -/
def Agree : Except Fault Node → Except Fault Node → Prop
  | .ok n, .ok m => n = m
  | .error f, .error g => f.kind = .layout ∧ g.kind = .layout
  | .ok _, .error _ | .error _, .ok _ => False

theorem agree_self_iff {x : Except Fault Node} : Agree x x ↔ ∀ f, x = .error f → f.kind = .layout := by
  cases x <;> simp [Agree]

theorem agree_error_iff {f : Fault} {x : Except Fault Node} :
    Agree (.error f) x ↔ f.kind = .layout ∧ ∃ g, x = .error g ∧ g.kind = .layout := by
  cases x <;> simp [Agree]

theorem outcome_read_of_key {p : Place} {f : Fault} (h : Value.requireWritable p.key.toList = .error f) (es : Entries) :
    (read (.map es) p).outcome = .error f :=
  Declaration.outcome_read_of_opening (d := ⟨.map es, p⟩) rfl (by rw [Declaration.opening, h]; rfl)

theorem outcome_read_of_checkKind {es : Entries} {p : Place} {f : Fault}
    (hkey : Value.requireWritable p.key.toList = .ok ()) (h : checkKind p.path p.kind.name es = .error f) :
    (read (.map es) p).outcome = .error f :=
  Declaration.outcome_read_of_opening (d := ⟨.map es, p⟩) rfl (by rw [Declaration.opening, hkey, h]; rfl)

theorem outcome_read_of_null_type {es : Entries} (h : Entries.get? es (.text "type") = some .null) {p : Place}
    (hkey : Value.requireWritable p.key.toList = .ok ()) :
    (read (.map es) p).outcome = .error (.layout p.path (.unknownKind .null)) :=
  outcome_read_of_checkKind hkey (by rw [checkKind, h]; rfl)

/-- A name without a value is left out at any depth: nothing else is read. -/
theorem outcome_read_unnoticed {s : String} {es fs : Entries} (h : es.LeavesOut (.text s) fs) {v w : Value}
    (hv : v.Rewritten (Entries.Unnoticed (.text s) es fs) .implied w) (p : Place) :
    (read w p).outcome = (read v p).outcome :=
  read_rewritten (Value.harmless_unnoticed h) hv p fun hdeclared => by cases hdeclared

/-- A key that is no text cannot be listed, which is found out once the kind is checked. -/
theorem outcome_read_leavesOut_of_no_text {key : Value} {es fs : Entries} (h : es.LeavesOut key fs)
    (hkey : ∀ s, key ≠ .text s) {p : Place} (hplace : Value.requireWritable p.key.toList = .ok ()) :
    (read (.map fs) p).outcome = (read (.map es) p).outcome ∨
    (read (.map es) p).outcome = .error (.misuse .wrongOperand) := by
  cases hkind : checkKind p.path p.kind.name es with
  | error f =>
    have hkind' : checkKind p.path p.kind.name fs = .error f := by
      rw [← hkind, checkKind, checkKind, h.get?_of_ne (hkey "type")]
    exact .inl ((outcome_read_of_checkKind hplace hkind').trans (outcome_read_of_checkKind hplace hkind).symm)
  | ok =>
    obtain ⟨before, after, -⟩ := h
    have hmem : (key, Value.null) ∈ before ++ (key, .null) :: after := List.mem_append_right before List.mem_cons_self
    refine .inr (Declaration.outcome_read_of_opening (d := ⟨.map (before ++ (key, .null) :: after), p⟩) rfl ?_)
    rw [Declaration.opening, hplace, hkind, unknownKeys_of_no_text hmem hkey]
    rfl

/-- Leaving out a key is noticed only of a type, or in a fault that is no refusal. -/
theorem agree_leavesOut_iff_of_key {key : Value} {es fs : Entries} (h : es.LeavesOut key fs) {p : Place}
    (hplace : Value.requireWritable p.key.toList = .ok ()) :
    Agree (read (.map es) p).outcome (read (.map fs) p).outcome ↔
      (∀ f, (read (.map es) p).outcome = .error f → f.kind = .layout) ∧
        (key = .text "type" → ∃ f, (read (.map fs) p).outcome = .error f ∧ f.kind = .layout) := by
  by_cases htype : key = .text "type"
  · subst htype
    rw [outcome_read_of_null_type h.get?_left hplace, agree_error_iff]
    simp [Fault.kind, Fault.quoted, Flaw.quoted, Value.isWritable, Fault.subject]
  · have hread : (read (.map fs) p).outcome = (read (.map es) p).outcome ∨
        (read (.map es) p).outcome = .error (.misuse .wrongOperand) := by
      by_cases hname : ∃ s, key = .text s
      · obtain ⟨s, rfl⟩ := hname
        exact .inl (outcome_read_unnoticed h (.here ⟨rfl, rfl, fun hs => absurd hs htype⟩) p)
      · exact outcome_read_leavesOut_of_no_text h (fun s hs => hname ⟨s, hs⟩) hplace
    obtain hsame | hlisted := hread
    · rw [hsame, agree_self_iff]
      simp [htype]
    · rw [hlisted, agree_error_iff]
      simp

theorem agree_leavesOut_iff {key : Value} {es fs : Entries} (h : es.LeavesOut key fs) (p : Place) :
    Agree (read (.map es) p).outcome (read (.map fs) p).outcome ↔
      (∀ f, (read (.map es) p).outcome = .error f → f.kind = .layout) ∧
        (key = .text "type" → ∃ f, (read (.map fs) p).outcome = .error f ∧ f.kind = .layout) := by
  cases hplace : Value.requireWritable p.key.toList with
  | error f =>
    obtain ⟨-, rfl⟩ := Value.requireWritable_eq_error_iff.1 hplace
    rw [outcome_read_of_key hplace, agree_error_iff]
    simp
  | ok => exact agree_leavesOut_iff_of_key h hplace

end Node

namespace Declaration

theorem not_exists_escapes_iff {d : Declaration} :
    (¬ ∃ f, d.Escapes f) ↔ ∀ f, d.read.outcome = .error f → f.kind = .layout := by
  constructor
  · intro h f hf
    by_contra hkind
    exact h ⟨f, (outcome_read_eq_error_iff hkind).1 hf⟩
  · rintro h ⟨f, hf⟩
    exact hf.not_isFlaw (h f ((outcome_read_eq_error_iff hf.not_isFlaw).2 hf))

end Declaration

/-- **Whether a null is read as if its key was absent.**  The mapping in which the key is null and the mapping without
it agree, unless a fault escapes or, where the key is the type, the mapping is read without it.  At any depth, the one
is read like the other where the key is an option, a hook, or a type that has to be declared; a layout that declares a
null type in another place is never read. -/
theorem null_absent_iff {key : Value} {es fs : Entries} (h : es.LeavesOut key fs) :
    (∀ p : Place, Node.Agree (Node.read (.map es) p).outcome (Node.read (.map fs) p).outcome ↔
      (¬ ∃ f, (⟨.map es, p⟩ : Declaration).Escapes f) ∧
        (key = .text "type" → ∃ f, (Node.read (.map fs) p).outcome = .error f ∧ f.kind = .layout)) ∧
    ((∃ s, key = .text s) → ∀ {v w : Value}, v.Rewritten (Entries.Unnoticed key es fs) .implied w →
      ∀ p, (Node.read w p).outcome = (Node.read v p).outcome) ∧
    (key = .text "type" → ∀ {tree : Value} {d : Declaration}, tree.Declares d → d.raw = .map es →
      ∀ l, (Layout.read tree).outcome ≠ .ok l) := by
  refine ⟨fun p => ?_, ?_, ?_⟩
  · rw [Declaration.not_exists_escapes_iff]
    exact Node.agree_leavesOut_iff h p
  · rintro ⟨s, rfl⟩
    exact Node.outcome_read_unnoticed h
  · rintro rfl tree d hd hes l hl
    obtain ⟨n, hn⟩ := Layout.exists_read_of_declares hl hd
    obtain ⟨raw, p⟩ := d
    obtain rfl : raw = .map es := hes
    cases hplace : Value.requireWritable p.key.toList with
    | error f =>
      rw [Declaration.read, Node.outcome_read_of_key hplace] at hn
      cases hn
    | ok =>
      rw [Declaration.read, Node.outcome_read_of_null_type h.get?_left hplace] at hn
      cases hn

/-- A null below a subvolume that is not noticed, one that is required and refused with its key and without it, and one that
is the type of a partition. -/
theorem null_absent_of_nested_mountpoint :
    let disk (content : Value) : Value := .map [entry "device" (.text "/dev/sda"), entry "content" content]
    let home (es : Entries) : Value := disk (node "btrfs" [entry "subvolumes" (.map [(.text "home", .map es)])])
    let place : Place := ⟨"disk.a", .disk, some (.text "a"), none⟩
    let table : Value := .map [entry "disk" (.map [entry "a" (disk (node "table"
      [entry "partitions" (.list [.map [entry "type" .null]])]))])]
    ((Node.read (home [entry "mountpoint" .null]) place).outcome.toOption.isSome = true ∧
      (Node.read (home []) place).outcome = (Node.read (home [entry "mountpoint" .null]) place).outcome) ∧
    Node.Agree (Node.read (.map [entry "device" .null]) place).outcome (Node.read (.map []) place).outcome ∧
    ∀ l, (Layout.read table).outcome ≠ .ok l := by
  intro disk home place table
  have hhome : Entries.LeavesOut (.text "mountpoint") [entry "mountpoint" .null] [] := ⟨[], [], by simp⟩
  have hdevice : Entries.LeavesOut (.text "device") [entry "device" .null] [] := ⟨[], [], by simp⟩
  have htype : Entries.LeavesOut (.text "type") [entry "type" .null] [] := ⟨[], [], by simp⟩
  have hbelow : (home [entry "mountpoint" .null]).Rewritten
      (Entries.Unnoticed (.text "mountpoint") [entry "mountpoint" .null] []) .implied (home []) :=
    .held .content (.held (.child (by decide) (.text "home") [] []) (.here ⟨rfl, rfl, by simp⟩)
      [entry "type" (.text "btrfs")] []) [entry "device" (.text "/dev/sda")] []
  have hrequired (f : Fault) (hf : (Node.read (.map [entry "device" .null]) place).outcome = .error f) :
      f.kind = .layout := by
    have hkind : (match (Node.read (.map [entry "device" .null]) place).outcome with
        | .ok _ => none
        | .error f => some f.kind) = some .layout := by decide +kernel
    rw [hf] at hkind
    exact Option.some.inj hkind
  have hdeclared : table.declarations.any (fun d => d.raw = .map [entry "type" .null]) = true := by decide +kernel
  obtain ⟨d, hd, hraw⟩ := List.any_eq_true.1 hdeclared
  exact ⟨⟨by decide +kernel, (null_absent_iff hhome).2.1 ⟨_, rfl⟩ hbelow place⟩,
    ((null_absent_iff hdevice).1 place).2 ⟨Declaration.not_exists_escapes_iff.2 hrequired, by simp⟩,
    (null_absent_iff htype).2.2 rfl (Value.mem_declarations_iff.1 hd) (of_decide_eq_true hraw)⟩

/-- The null type of a disk: the disk is refused, and it is read without the key. -/
theorem null_noticed_of_implied_type :
    let place : Place := ⟨"disk.a", .disk, some (.text "a"), none⟩
    let device := entry "device" (.text "/dev/sda")
    Entries.LeavesOut (.text "type") [device, entry "type" .null] [device] ∧
      (Node.read (.map [device, entry "type" .null]) place).outcome = .error (.layout "disk.a" (.unknownKind .null)) ∧
      (∃ n, (Node.read (.map [device]) place).outcome = .ok n) ∧
      ¬ Node.Agree (Node.read (.map [device, entry "type" .null]) place).outcome
      (Node.read (.map [device]) place).outcome := by
  intro place device
  have hread : ∃ n, (Node.read (.map [device]) place).outcome = .ok n := by
    have hsome : (Node.read (.map [device]) place).outcome.toOption.isSome = true := by decide +kernel
    obtain ⟨n, hn⟩ := Option.isSome_iff_exists.1 hsome
    exact ⟨n, eq_ok_of_toOption hn⟩
  have hleaves : Entries.LeavesOut (.text "type") [device, entry "type" .null] [device] :=
    ⟨[device], [], by simp [device, entry]⟩
  have hrefused := Node.outcome_read_of_null_type (p := place) hleaves.get?_left rfl
  refine ⟨hleaves, hrefused, hread, ?_⟩
  obtain ⟨n, hn⟩ := hread
  rw [hrefused, hn]
  exact id

end Provision
