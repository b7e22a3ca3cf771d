import Provision.Layout.Normal
import Provision.Proofs.Layout.Declarations
import Provision.Proofs.Layout.Mountpoints
import Provision.Value.Identity
/-!
# The attributes of the normal form

Every kind has its attributes, in their order, and each attribute is of one form (`Kind.attributes`).  A node that was
read has, in its normal form, exactly the attributes of its kind, with its type before and its hooks after them, and
every value is of its form (`normal_form_of_read`): the options by what reads them (`Spec.allowed_of_read`), the nodes
below by what holds them (`Node.allowed_heldField`).
-/
namespace Provision

open Value (Entries entry node)

def Value.IsOf (kind : Kind) (v : Value) : Prop := v.option? "type" = some (.text kind.name)

/-- What the value of an attribute can be. -/
inductive Attribute where
  /-- Anything, also nothing. -/
  | any
  /-- Anything but nothing. -/
  | given
  /-- One of some texts. -/
  | oneOf (choices : List String)
  /-- A path from the root; where it is optional, also nothing. -/
  | mountpoint (optional : Bool)
  /-- A list of texts. -/
  | texts
  /-- A mapping of texts to texts. -/
  | properties
  /-- A node of a kind that the slot takes, or nothing. -/
  | content (slot : Slot)
  /-- A list of partitions whose numbers are positive and different. -/
  | partitions
  /-- A mapping of different names to nodes of a kind. -/
  | named (kind : Kind)

namespace Attribute

def Allows : Attribute → Value → Prop
  | any, _ => True
  | given, v => v ≠ .null
  | oneOf choices, v => ∃ s ∈ choices, v = .text s
  | mountpoint optional, v => (optional = true ∧ v = .null) ∨ ∃ m, v = .text m ∧ Rooted m
  | texts, v => ∃ ts : List String, v = .list (ts.map .text)
  | properties, v => ∃ ps : List (String × String), v = .map (ps.map (fun p => (.text p.1, .text p.2)))
  | content slot, v => v = .null ∨ ∃ kind, slot.takes kind = true ∧ v.IsOf kind
  | partitions, v => ∃ ps, v = .list ps ∧ (∀ p ∈ ps, p.IsOf .partition) ∧
      ∃ numbers : List Nat, ps.map (·.option? "index") = numbers.map (fun i => some (.int (i + 1))) ∧ numbers.Nodup
  | named kind, v => ∃ es : List (String × Value), v = .map (es.map (fun e => (.text e.1, e.2))) ∧ (es.map Prod.fst).Nodup ∧
      ∀ e ∈ es, e.2.IsOf kind

end Attribute

namespace Kind

def ownAttributes : Kind → List (String × Attribute)
  | disk => [("name", .given), ("device", .given)]
  | table => [("format", .oneOf ["gpt", "msdos"])]
  | partition => [("name", .any), ("part_type", .given), ("fs_type", .any), ("start", .given), ("end", .given),
      ("index", .given), ("flags", .texts), ("bootable", .given)]
  | filesystem => [("format", .given), ("mountpoint", .mountpoint false), ("extra_args", .texts), ("mount_options", .texts)]
  | btrfs => [("extra_args", .texts), ("mount_options", .texts), ("mountpoint", .mountpoint true)]
  | subvolume => [("name", .given), ("extra_args", .texts), ("mount_options", .texts), ("mountpoint", .mountpoint true)]
  | swap => [("random_encryption", .given)]
  | physicalVolume => [("vg", .given)]
  | volumeGroup => [("name", .given)]
  | logicalVolume => [("name", .given), ("size", .given), ("lvm_type", .any), ("extra_args", .texts)]
  | poolMember => [("pool", .given)]
  | pool => [("name", .given), ("mode", .given), ("options", .properties), ("root_fs_options", .properties),
      ("mountpoint", .mountpoint true), ("mount_options", .texts)]
  | dataset => [("name", .given), ("zfs_type", .oneOf ["filesystem", "volume"]), ("options", .properties),
      ("mount_options", .texts), ("mountpoint", .mountpoint true), ("size", .any)]
  | arrayMember => [("name", .given)]
  | array => [("name", .given), ("level", .given), ("metadata", .given)]
  | luks => [("name", .given), ("key_file", .any), ("extra_args", .texts)]
  | nodev => [("fs_type", .given), ("device", .given), ("mountpoint", .mountpoint false), ("mount_options", .texts)]

def Holding.attribute : Holding → List (String × Attribute)
  | .none => []
  | .content slot => [("content", .content slot)]
  | .partitions => [("partitions", .partitions)]
  | .named option kind => [(option, .named kind)]

/-- **The attributes of a kind**, in their order. -/
def attributes (k : Kind) : List (String × Attribute) := k.ownAttributes ++ k.holding.attribute

/-- The attribute that is the key of a node where it is left out. -/
def keyed? : Kind → Option String
  | disk | subvolume | volumeGroup | logicalVolume | pool | dataset | array => some "name"
  | nodev => some "mountpoint"
  | _ => none

end Kind

abbrev Allowed (attributes : List (String × Attribute)) (fields : List (String × Value)) : Prop :=
  List.Forall₂ (fun a f => a.1 = f.1 ∧ a.2.Allows f.2) attributes fields

/-- **The normal form of a node of a kind**: its type, its attributes, its hooks. -/
def Value.IsNormal (kind : Kind) (v : Value) : Prop :=
  ∃ fields preCreate postCreate preMount postMount,
    v = .map (entry "type" (.text kind.name) :: fields.map (fun f => entry f.1 f.2) ++
      [entry "hooks" (.map [entry "pre_create" (.text preCreate), entry "post_create" (.text postCreate),
        entry "pre_mount" (.text preMount), entry "post_mount" (.text postMount)])]) ∧
    Allowed kind.attributes fields

namespace Spec

variable {p : Place} {d : Declared} {f : DatasetType → TableFormat → Spec}

theorem ne_null_of_require {option : String} {default : Option Value} {v : Value} (h : d.require option default = .ok v)
    (hdefault : default ≠ some .null) : v ≠ .null := by
  have hget := d.get?_ne_null option
  unfold Declared.require at h
  split at h
  · cases h
    simp_all
  · cases h
    simp_all
  · cases h

theorem ne_null_of_require_key {option : String} {v : Value} (h : d.require option p.keyValue = .ok v) : v ≠ .null := by
  refine ne_null_of_require h ?_
  cases hkey : p.name? <;> simp [Place.keyValue, hkey]

theorem getD_ne_null {option : String} {default : Value} (h : default ≠ .null) : d.getD option default ≠ .null := by
  have hget := d.get?_ne_null option
  unfold Declared.getD
  cases hv : d.get? option with
  | none => exact h
  | some v => exact fun hnull => hget (hv.trans (congrArg some hnull))

theorem allows_texts (ts : List String) : Attribute.texts.Allows (texts ts) := ⟨ts, rfl⟩

theorem allows_properties (ps : Properties) : Attribute.properties.Allows (propertiesValue ps) := ⟨ps, rfl⟩

theorem allows_mountpoint {option m : String} {default : Option Value} (h : d.mountpoint option default = .ok m) :
    (Attribute.mountpoint false).Allows (.text m) := .inr ⟨m, rfl, rooted_of_mountpoint h⟩

theorem allows_mountpoint? {option : String} {m : Option String} (h : d.mountpoint? option = .ok m) :
    (Attribute.mountpoint true).Allows (textOrNull m) := by
  cases m with
  | none => exact .inl ⟨rfl, rfl⟩
  | some m => exact .inr ⟨m, rfl, rooted_of_mountpoint? h m (by simp)⟩

/-- **The options of a node are of their forms**, whatever its dataset type and its table format are. -/
theorem allowed_of_read (h : Spec.read p d = .ok f) (type : DatasetType) (format : TableFormat) :
    Allowed p.kind.ownAttributes (f type format).fields := by
  have hgiven {option : String} {v : Value} (h : d.require option none = .ok v) : v ≠ .null := ne_null_of_require h (by simp)
  have htype : (Attribute.oneOf ["filesystem", "volume"]).Allows (.text type.name) :=
    ⟨_, by cases type <;> simp [DatasetType.name], rfl⟩
  have hformat : (Attribute.oneOf ["gpt", "msdos"]).Allows (.text format.name) :=
    ⟨_, by cases format <;> simp [TableFormat.name], rfl⟩
  unfold Spec.read at h
  split at h
  all_goals
    rename_i hkind
    simp only [except_bind_eq_ok_iff, pure, Except.pure, Except.ok.injEq] at h
    rw [hkind]
  case h_1 =>
    obtain ⟨name, hname, device, hdevice, rfl⟩ := h
    exact .cons ⟨rfl, ne_null_of_require_key hname⟩ (.cons ⟨rfl, hgiven hdevice⟩ .nil)
  case h_2 =>
    obtain rfl := h
    exact .cons ⟨rfl, hformat⟩ .nil
  case h_3 =>
    obtain ⟨index, hindex, flags, -, rfl⟩ := h
    have hindex : index ≠ .null := ne_null_of_require hindex (by cases p.position <;> simp)
    exact .cons ⟨rfl, trivial⟩ (.cons ⟨rfl, getD_ne_null (by simp)⟩
      (.cons ⟨rfl, trivial⟩ (.cons ⟨rfl, getD_ne_null (by simp)⟩
      (.cons ⟨rfl, getD_ne_null (by simp)⟩ (.cons ⟨rfl, hindex⟩ (.cons ⟨rfl, allows_texts flags⟩
      (.cons ⟨rfl, getD_ne_null (by simp)⟩ .nil)))))))
  case h_4 =>
    obtain ⟨name, hname, m, hm, extraArgs, -, mountOptions, -, rfl⟩ := h
    exact .cons ⟨rfl, hgiven hname⟩ (.cons ⟨rfl, allows_mountpoint hm⟩ (.cons ⟨rfl, allows_texts extraArgs⟩
      (.cons ⟨rfl, allows_texts mountOptions⟩ .nil)))
  case h_5 =>
    obtain ⟨extraArgs, -, mountOptions, -, m, hm, rfl⟩ := h
    exact .cons ⟨rfl, allows_texts extraArgs⟩
      (.cons ⟨rfl, allows_texts mountOptions⟩ (.cons ⟨rfl, allows_mountpoint? hm⟩ .nil))
  case h_6 =>
    obtain ⟨name, hname, extraArgs, -, mountOptions, -, m, hm, rfl⟩ := h
    exact .cons ⟨rfl, ne_null_of_require_key hname⟩
      (.cons ⟨rfl, allows_texts extraArgs⟩ (.cons ⟨rfl, allows_texts mountOptions⟩
      (.cons ⟨rfl, allows_mountpoint? hm⟩ .nil)))
  case h_7 =>
    obtain rfl := h
    exact .cons ⟨rfl, getD_ne_null (by simp)⟩ .nil
  case h_8 | h_11 | h_14 =>
    obtain ⟨name, hname, rfl⟩ := h
    exact .cons ⟨rfl, hgiven hname⟩ .nil
  case h_9 =>
    obtain ⟨name, hname, rfl⟩ := h
    exact .cons ⟨rfl, ne_null_of_require_key hname⟩ .nil
  case h_10 =>
    obtain ⟨name, hname, size, hsize, extraArgs, -, rfl⟩ := h
    exact .cons ⟨rfl, ne_null_of_require_key hname⟩ (.cons ⟨rfl, hgiven hsize⟩ (.cons ⟨rfl, trivial⟩
      (.cons ⟨rfl, allows_texts extraArgs⟩ .nil)))
  case h_12 =>
    obtain ⟨name, hname, options, -, rootOptions, -, m, hm, mountOptions, -, rfl⟩ := h
    exact .cons ⟨rfl, ne_null_of_require_key hname⟩
      (.cons ⟨rfl, getD_ne_null (by simp)⟩ (.cons ⟨rfl, allows_properties options⟩
      (.cons ⟨rfl, allows_properties rootOptions⟩ (.cons ⟨rfl, allows_mountpoint? hm⟩
      (.cons ⟨rfl, allows_texts mountOptions⟩ .nil)))))
  case h_13 =>
    obtain ⟨name, hname, -, -, options, -, mountOptions, -, m, hm, rfl⟩ := h
    exact .cons ⟨rfl, ne_null_of_require_key hname⟩ (.cons ⟨rfl, htype⟩ (.cons ⟨rfl, allows_properties options⟩
      (.cons ⟨rfl, allows_texts mountOptions⟩ (.cons ⟨rfl, allows_mountpoint? hm⟩ (.cons ⟨rfl, trivial⟩ .nil)))))
  case h_15 =>
    obtain ⟨name, hname, rfl⟩ := h
    exact .cons ⟨rfl, ne_null_of_require_key hname⟩
      (.cons ⟨rfl, getD_ne_null (by simp)⟩ (.cons ⟨rfl, getD_ne_null (by simp)⟩ .nil))
  case h_16 =>
    obtain ⟨name, hname, extraArgs, -, rfl⟩ := h
    exact .cons ⟨rfl, hgiven hname⟩ (.cons ⟨rfl, trivial⟩ (.cons ⟨rfl, allows_texts extraArgs⟩ .nil))
  case h_17 =>
    obtain ⟨fsType, hfsType, m, hm, mountOptions, -, rfl⟩ := h
    exact .cons ⟨rfl, hgiven hfsType⟩ (.cons ⟨rfl, getD_ne_null (by simp)⟩ (.cons ⟨rfl, allows_mountpoint hm⟩
      (.cons ⟨rfl, allows_texts mountOptions⟩ .nil)))

def index : Spec → Value
  | partition _ _ _ _ _ index _ _ => index
  | _ => .null

theorem lookup_index {spec : Spec} (h : spec.kind = .partition) : spec.fields.lookup "index" = some spec.index := by
  cases spec with
  | partition => simp [fields, index, List.lookup_cons]
  | _ => cases h

theorem heldField_eq (spec : Spec) (children : List (String × Value)) :
    spec.heldField children = match spec.kind.holding with
      | .none => []
      | .content _ => [("content", (children.head?.map (·.2)).getD .null)]
      | .partitions => [("partitions", .list (children.map (·.2)))]
      | .named option _ => [(option, .map (children.map (fun c => (.text c.1, c.2))))] := by
  cases spec <;> rfl

theorem exists_size_of_finish {spec : Spec} (hkind : p.kind = .dataset) (hread : Spec.read p d = .ok f)
    (h : Spec.finish p d f = .ok spec) : ∃ type size, spec.fields.lookup "zfs_type" = some (.text type) ∧
      spec.fields.lookup "size" = some size ∧ (type = "volume" → size ≠ .null) := by
  -- the type and the size are checked last, when the nodes below were read
  simp only [Spec.read, hkind, except_bind_eq_ok_iff, pure, Except.pure, Except.ok.injEq] at hread
  obtain ⟨name, -, -, -, options, -, mountOptions, -, m, -, rfl⟩ := hread
  simp only [Spec.finish, hkind, except_bind_eq_ok_iff, pure, Except.pure, Except.ok.injEq] at h
  obtain ⟨type, hread, rfl⟩ := h
  refine ⟨type.name, _, by simp [fields, List.lookup_cons], by simp [fields, List.lookup_cons]; rfl, fun htype => ?_⟩
  cases type with
  | filesystem => simp [DatasetType.name] at htype
  | volume =>
    unfold readDatasetType at hread
    dsimp only at hread
    split at hread
    · cases hread
    · split at hread
      · cases hread
      · rename_i hsize
        obtain ⟨v, hv⟩ := Option.ne_none_iff_exists'.1 (by simpa using hsize)
        have hnull := d.get?_ne_null "size"
        rw [hv, Ne, Option.some.injEq] at hnull
        simpa [Declared.getD, hv] using hnull
    · cases hread

theorem require_of_left_out {option : String} {v : Value} (h : d.require option p.keyValue = .ok v)
    (hout : d.get? option = none) :
    ∃ key, p.name? = some key ∧ v = .text key := by
  unfold Declared.require at h
  rw [hout, Place.keyValue] at h
  cases hkey : p.name? with
  | none => simp [hkey] at h
  | some key =>
    rw [hkey] at h
    exact ⟨key, rfl, (Except.ok.inj h).symm⟩

/-- **A name that is left out is the key of the node.** -/
theorem lookup_of_left_out {option : String} (hkeyed : p.kind.keyed? = some option) (hread : Spec.read p d = .ok f)
    (hout : d.get? option = none) (type : DatasetType) (format : TableFormat) :
    ∃ key, p.name? = some key ∧ (f type format).fields.lookup option = some (.text key) := by
  unfold Spec.read at hread
  split at hread
  all_goals
    rename_i hkind
    simp only [except_bind_eq_ok_iff, pure, Except.pure, Except.ok.injEq] at hread
    rw [hkind] at hkeyed
  -- only a mount without a device takes its mountpoint from the key, which must then be a path
  case h_17 =>
    obtain rfl := Option.some.inj hkeyed
    obtain ⟨fsType, -, m, hm, mountOptions, -, rfl⟩ := hread
    obtain ⟨v, hv, hm⟩ := except_bind_eq_ok_iff.1 hm
    obtain ⟨key, hkey, rfl⟩ := require_of_left_out hv hout
    simp only [Declared.mountpointOf] at hm
    split at hm
    · cases hm
      exact ⟨m, hkey, by simp [fields, List.lookup_cons]⟩
    · cases hm
  case h_1 | h_6 | h_9 | h_10 | h_12 | h_13 | h_15 =>
    obtain rfl := Option.some.inj hkeyed
    obtain ⟨name, hname, hread⟩ := hread
    obtain ⟨key, hkey, rfl⟩ := require_of_left_out hname hout
    repeat obtain ⟨_, _, hread⟩ := hread
    exact ⟨key, hkey, by simp [fields]⟩
  all_goals cases hkeyed

end Spec

theorem Value.get?_map_entry (fs : List (String × Value)) (s : String) :
    Entries.get? (fs.map (fun f => entry f.1 f.2)) (.text s) = fs.lookup s := by
  induction fs with
  | nil => rfl
  | cons f fs ih =>
    rw [List.map_cons, List.lookup_cons, ← ih]
    have hsame : Value.same (.text s) (.text f.1) = (s == f.1) := by
      rw [Bool.eq_iff_iff, Value.same_text_iff, beq_iff_eq, Value.text.injEq, eq_comm]
    simp only [Entries.get?, List.find?_cons, entry, hsame]
    cases s == f.1 <;> rfl

namespace Node

theorem toValues_eq_map (ns : List Node) : toValues ns = ns.map (fun n => (n.key, n.toValue)) := by
  induction ns with
  | nil => rfl
  | cons n ns ih => rw [toValues, ih, List.map_cons]

theorem toValue_eq (n : Node) : n.toValue = .map ((("type", .text n.spec.kind.name) ::
    (n.spec.fields ++ n.spec.heldField (toValues n.children)) ++ [("hooks", n.hooks.toValue)]).map
    (fun f => entry f.1 f.2)) := by
  cases n
  rw [toValue]
  rfl

theorem isOf_toValue (n : Node) : n.toValue.IsOf n.spec.kind := by
  rw [Value.IsOf, toValue_eq, Value.option?, Value.get?_map_entry, List.cons_append, List.lookup_cons]
  rfl

theorem option?_toValue {n : Node} {s : String} {v : Value} (hs : s ≠ "type") (h : n.spec.fields.lookup s = some v) :
    n.toValue.option? s = some v := by
  rw [toValue_eq, Value.option?, Value.get?_map_entry, List.cons_append, List.lookup_cons, List.append_assoc,
    List.lookup_append, h, beq_eq_false_iff_ne.2 hs]
  rfl

theorem exists_numbers_of_checkIndices {path : String} : ∀ {ns : List Node} {seen : List (Nat × Nat)} {position : Nat},
    checkIndices path seen position ns = .ok () →
    ∃ numbers : List Nat, ns.map (·.spec.index) = numbers.map (fun i => .int (i + 1)) ∧ numbers.Nodup ∧
      ∀ i ∈ numbers, i + 1 ∉ seen.map Prod.fst
  | [], _, _, _ => ⟨[], rfl, List.nodup_nil, by simp⟩
  | n :: ns, seen, position, h => by
    cases hspec : n.spec
    case partition name partType fsType start stop index flags bootable =>
      simp only [checkIndices, hspec] at h
      split at h
      · rename_i i
        split at h
        · cases h
        · rename_i hseen
          -- what was seen grows by the number at hand, so no later partition has it
          obtain ⟨numbers, hnumbers, hnodup, hnew⟩ := exists_numbers_of_checkIndices h
          refine ⟨i :: numbers, ?_, ?_, ?_⟩
          · rw [List.map_cons, List.map_cons, hnumbers, hspec]
            rfl
          · refine List.nodup_cons.2 ⟨fun hmem => ?_, hnodup⟩
            simpa using hnew i hmem
          · refine List.forall_mem_cons.2 ⟨fun hmem => ?_, fun j hj hmem => hnew j hj (List.mem_cons_of_mem _ hmem)⟩
            obtain ⟨s, hs, hsi⟩ := List.mem_map.1 hmem
            exact List.find?_eq_none.1 hseen s hs (by simpa using hsi)
      · cases h
    all_goals
      simp only [checkIndices, hspec] at h
      cases h

theorem exists_numbers_of_read {d : Declaration} {n : Node} (h : d.read.outcome = .ok n)
    (hholding : n.spec.kind.holding = .partitions) :
    ∃ numbers : List Nat, n.children.map (·.spec.index) = numbers.map (fun i => .int (i + 1)) ∧ numbers.Nodup := by
  obtain ⟨-, -, nodes, -, -, -, hcollect, -⟩ := Declaration.read_eq_ok h
  rw [← (fits_of_read h).2, hholding] at hcollect
  obtain ⟨_, hindices, rfl⟩ := except_map_eq_ok_iff.1 hcollect
  obtain ⟨numbers, hnumbers, hnodup, -⟩ := exists_numbers_of_checkIndices hindices
  exact ⟨numbers, hnumbers, hnodup⟩

/-- **The nodes below a node are of the form of its kind.** -/
theorem allowed_heldField {d : Declaration} {n : Node} (h : d.read.outcome = .ok n) :
    Allowed n.spec.kind.holding.attribute (n.spec.heldField (toValues n.children)) := by
  obtain ⟨⟨hkinds, -⟩, hkind⟩ := fits_of_read h
  obtain ⟨-, -, nodes, -, -, -, hcollect, -⟩ := Declaration.read_eq_ok h
  rw [← hkind] at hcollect
  rw [Spec.heldField_eq, toValues_eq_map]
  cases hholding : n.spec.kind.holding with
  | none => exact .nil
  | content slot =>
    refine .cons ⟨rfl, ?_⟩ .nil
    cases hchildren : n.children with
    | nil => exact .inl rfl
    | cons c cs =>
      have htakes := hkinds c (hchildren ▸ List.mem_cons_self)
      rw [hholding] at htakes
      exact .inr ⟨c.spec.kind, htakes, c.isOf_toValue⟩
  | partitions =>
    have hpartition (c : Node) (hc : c ∈ n.children) : c.spec.kind = .partition := by
      simpa [hholding, Kind.Holding.takes] using hkinds c hc
    obtain ⟨numbers, hnumbers, hnodup⟩ := exists_numbers_of_read h hholding
    refine .cons ⟨rfl, n.children.map toValue, by simp, fun v hv => ?_, numbers, ?_, hnodup⟩ .nil
    · obtain ⟨c, hc, rfl⟩ := List.mem_map.1 hv
      exact hpartition c hc ▸ c.isOf_toValue
    · have hindex (c : Node) (hc : c ∈ n.children) : c.toValue.option? "index" = some c.spec.index :=
        option?_toValue (by simp) (Spec.lookup_index (hpartition c hc))
      have hsome := congrArg (List.map some) hnumbers
      rw [List.map_map, List.map_map] at hsome
      rw [List.map_map]
      exact (List.map_congr_left hindex).trans hsome
  | named option kind =>
    rw [hholding] at hcollect
    replace hcollect : ofList nodes = n.children := Except.ok.inj hcollect
    refine .cons ⟨rfl, n.children.map (fun c => (c.key, c.toValue)), rfl, ?_, fun e he => ?_⟩ .nil
    · rw [List.map_map, ← hcollect]
      exact nodup_keys_ofList nodes
    · obtain ⟨c, hc, rfl⟩ := List.mem_map.1 he
      have hkind : c.spec.kind = kind := by simpa [hholding, Kind.Holding.takes] using hkinds c hc
      exact hkind ▸ c.isOf_toValue

theorem kind_ne_table_of_mem_children {d : Declaration} {n c : Node} (h : d.read.outcome = .ok n) (hc : c ∈ n.children)
    (hslot : n.spec.kind.holding = .content .volume) : c.spec.kind ≠ .table := by
  intro htable
  obtain ⟨⟨hkinds, -⟩, -⟩ := fits_of_read h
  have htakes := hkinds c hc
  rw [hslot, htable] at htakes
  simp [Kind.Holding.takes, Slot.takes] at htakes

/-- **A node that was read is normal.** -/
theorem isNormal_toValue {d : Declaration} {n : Node} (h : d.read.outcome = .ok n) : n.toValue.IsNormal n.spec.kind := by
  obtain ⟨es, f, -, -, hf, -, -, hfinish, -⟩ := Declaration.read_eq_ok h
  obtain ⟨type, format, hspec⟩ := Spec.exists_of_finish hfinish
  have hread := Declaration.read_of_opening hf
  have hown : Allowed n.spec.kind.ownAttributes n.spec.fields := by
    rw [hspec, Spec.kind_of_read hread]
    exact Spec.allowed_of_read hread type format
  exact ⟨_, n.hooks.preCreate, n.hooks.postCreate, n.hooks.preMount,
    n.hooks.postMount, by rw [toValue_eq, List.map_append]; rfl, List.rel_append hown (allowed_heldField h)⟩

end Node

theorem Declared.get?_eq_given? (path : String) (es : Entries) (option : String) :
    (⟨path, es⟩ : Declared).get? option = (Value.map es).given? option := by
  simp only [Declared.get?, Value.given?, Value.option?, Entries.field]
  cases Entries.get? es (.text option) with
  | none => rfl
  | some v => cases v <;> rfl

namespace Layout

def groupValue (l : Layout) (g : Group) : Value :=
  .map ((l.devices.filter (·.group == g)).map (fun d => (.text d.node.key, d.node.toValue)))

theorem WellFormed.allows_groupValue {l : Layout} (hl : l.WellFormed) (g : Group) :
    (Attribute.named g.kind).Allows (l.groupValue g) := by
  have hgroup (d : Device) (hd : d ∈ l.devices.filter (·.group == g)) : d ∈ l.devices ∧ d.group = g := by
    simpa using List.mem_filter.1 hd
  refine ⟨(l.devices.filter (·.group == g)).map (fun d => (d.node.key, d.node.toValue)), ?_, ?_, fun e he => ?_⟩
  · rw [groupValue, List.map_map]
    rfl
  · have hnodup : ((l.devices.filter (·.group == g)).map Device.ref).Nodup := hl.nodup.sublist (List.filter_sublist.map _)
    have hrefs : (l.devices.filter (·.group == g)).map Device.ref =
        ((l.devices.filter (·.group == g)).map (fun d => d.node.key)).map (fun key => ⟨g.name, key⟩) := by
      rw [List.map_map]
      refine List.map_congr_left fun d hd => ?_
      rw [Device.ref, (hgroup d hd).2]
      rfl
    rw [hrefs] at hnodup
    rw [List.map_map]
    exact hnodup.of_map _
  · obtain ⟨d, hd, rfl⟩ := List.mem_map.1 he
    obtain ⟨hmem, hg⟩ := hgroup d hd
    exact hg ▸ hl.kind d hmem ▸ d.node.isOf_toValue

end Layout

/-- **The normal form of a layout that was read.**  Every group is there with its devices; every node, at any depth, has
exactly the attributes of its kind, each of its form; only a whole device holds a table, a volume of a pool has a size,
and a name that was left out is the key. -/
theorem normal_form_of_read {tree : Value} {l : Layout} (h : (Layout.read tree).outcome = .ok l) :
    (∃ fields, l.toValue = .map (fields.map (fun f => entry f.1 f.2)) ∧
      Allowed (Group.all.map (fun g => (g.name, .named g.kind))) fields) ∧
    ∀ n ∈ l.nodes, n.toValue.IsNormal n.spec.kind ∧
      (n.spec.kind ∈ [Kind.partition, .logicalVolume, .dataset] → ∀ c ∈ n.children, c.spec.kind ≠ .table) ∧
      (n.spec.kind = .dataset → ∃ type size, n.toValue.option? "zfs_type" = some (.text type) ∧
        n.toValue.option? "size" = some size ∧ (type = "volume" → size ≠ .null)) ∧
      ∃ d, tree.Declares d ∧ d.read.outcome = .ok n ∧ d.place.kind = n.spec.kind ∧
        ∀ option, n.spec.kind.keyed? = some option → d.raw.given? option = none →
          d.place.name? = some n.key ∧ n.toValue.option? option = some (.text n.key) := by
  have hwell := Layout.wellFormed_of_read h
  refine ⟨⟨Group.all.map (fun g => (g.name, l.groupValue g)), ?_, ?_⟩, fun n hn => ?_⟩
  · rw [List.map_map]
    rfl
  · refine List.forall₂_map_left_iff.2 (List.forall₂_map_right_iff.2 (List.forall₂_same.2 fun g _ => ?_))
    exact ⟨rfl, hwell.allows_groupValue g⟩
  · obtain ⟨d, hd, hread⟩ := Layout.exists_declaration h hn
    obtain ⟨es, f, -, hes, hf, -, -, hfinish, hkey, -⟩ := Declaration.read_eq_ok hread
    have hkind : n.spec.kind = d.place.kind := (Node.fits_of_read hread).2
    replace hf := Declaration.read_of_opening hf
    refine ⟨Node.isNormal_toValue hread, fun hslot c hc => Node.kind_ne_table_of_mem_children hread hc ?_,
      fun hdataset => ?_, d, hd, hread, hkind.symm, fun option hkeyed hout => ?_⟩
    · simp only [List.mem_cons, List.not_mem_nil, or_false] at hslot
      obtain h | h | h := hslot <;> rw [h] <;> rfl
    · obtain ⟨type, size, htype, hsize, hvolume⟩ := Spec.exists_size_of_finish (hkind.symm.trans hdataset) hf hfinish
      exact ⟨type, size, Node.option?_toValue (by simp) htype, Node.option?_toValue (by simp) hsize, hvolume⟩
    · obtain ⟨type, format, hspec⟩ := Spec.exists_of_finish hfinish
      rw [hes, ← Declared.get?_eq_given? d.place.path] at hout
      obtain ⟨key, hplace, hlookup⟩ := Spec.lookup_of_left_out (hkind ▸ hkeyed) hf hout type format
      obtain rfl : n.key = key := by rw [hkey, hplace]; rfl
      refine ⟨hplace, Node.option?_toValue ?_ (hspec ▸ hlookup)⟩
      rintro rfl
      cases hk : n.spec.kind <;> simp [hk, Kind.keyed?] at hkeyed

/-- A pool whose volume is named by its key: the volume has its size, and nothing of what it left out is missing. -/
theorem normal_form_of_read_of_pool_volume :
    let tree : Value := .map [entry "zpool" (.map [entry "tank" (.map [entry "datasets" (.map [entry "vm" (.map [
      entry "zfs_type" (.text "volume"), entry "size" (.text "8G"), entry "content" (node "swap" [])])])])])]
    ∃ l n, (Layout.read tree).outcome = .ok l ∧ n ∈ l.nodes ∧ n.spec.kind = .dataset ∧ n.toValue.IsNormal .dataset ∧
      n.toValue.option? "name" = some (.text "vm") ∧ ∃ size, n.toValue.option? "size" = some size ∧ size ≠ .null := by
  intro tree
  have hchecked : (Layout.read tree).outcome.toOption.bind (fun l => l.nodes[1]?.bind (fun n =>
      if n.spec.kind = .dataset ∧ n.key = "vm" then
        (n.toValue.option? "name").bind (fun name => (n.toValue.option? "zfs_type").map (fun type => (name, type)))
      else none)) = some (.text "vm", .text "volume") := by decide +kernel
  obtain ⟨l, hl, hchecked⟩ := Option.bind_eq_some_iff.1 hchecked
  obtain ⟨n, hn, hchecked⟩ := Option.bind_eq_some_iff.1 hchecked
  replace hl := eq_ok_of_toOption hl
  replace hn := List.mem_of_getElem? hn
  split at hchecked
  · rename_i hkind
    obtain ⟨name, hname, hchecked⟩ := Option.bind_eq_some_iff.1 hchecked
    obtain ⟨type, htype, hpair⟩ := Option.map_eq_some_iff.1 hchecked
    obtain ⟨rfl, rfl⟩ := Prod.mk.inj hpair
    obtain ⟨-, hnodes⟩ := normal_form_of_read hl
    obtain ⟨hnormal, -, hdataset, -⟩ := hnodes n hn
    obtain ⟨type, size, htype', hsize, hvolume⟩ := hdataset hkind.1
    obtain rfl : "volume" = type := by simpa [htype'] using htype.symm
    exact ⟨l, n, hl, hn, hkind.1, hkind.1 ▸ hnormal, hname, size, hsize, hvolume rfl⟩
  · cases hchecked

end Provision
