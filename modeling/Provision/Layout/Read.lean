import Provision.Layout.Node
import Provision.Layout.Option
import Provision.Traced
/-!
# Reading a layout

`Node.read` reads one node and all below it, `Layout.read` a whole layout.  An option that a node's kind does not have is
reported and ignored; everything else that is out of place is a fault.  Options are read in the order of `Kind.options`,
the nodes a node holds last, so of several faults the first in that order is the one reported.
-/
namespace Provision

open Value (Entries)

namespace Kind

/-- The options of a kind, in the order in which they are read. -/
def options : Kind → List String
  | disk => ["name", "device", "content"]
  | table => ["format", "partitions"]
  | partition => ["name", "part-type", "fs-type", "start", "end", "index", "flags", "bootable", "content"]
  | filesystem => ["format", "mountpoint", "extraArgs", "mountOptions"]
  | btrfs => ["extraArgs", "mountOptions", "mountpoint", "subvolumes"]
  | subvolume => ["name", "extraArgs", "mountOptions", "mountpoint"]
  | swap => ["randomEncryption"]
  | physicalVolume => ["vg"]
  | volumeGroup => ["name", "lvs"]
  | logicalVolume => ["name", "size", "lvm_type", "extraArgs", "content"]
  | poolMember => ["pool"]
  | pool => ["name", "mode", "options", "rootFsOptions", "mountpoint", "mountOptions", "datasets"]
  | dataset => ["name", "zfs_type", "options", "mountOptions", "mountpoint", "size", "content"]
  | arrayMember => ["name"]
  | array => ["name", "level", "metadata", "content"]
  | luks => ["name", "keyFile", "extraArgs", "content"]
  | nodev => ["fsType", "device", "mountpoint", "mountOptions"]

/-- The nodes that a node of a kind holds. -/
inductive Holding where
  | none
  /-- One node at most, in the option `content`. -/
  | content (slot : Slot)
  /-- The partitions of a table. -/
  | partitions
  /-- A named collection of nodes of one kind, in an option. -/
  | named (option : String) (kind : Kind)

def holding : Kind → Holding
  | disk | array | luks => .content .device
  | partition | logicalVolume | dataset => .content .volume
  | table => .partitions
  | btrfs => .named "subvolumes" .subvolume
  | volumeGroup => .named "lvs" .logicalVolume
  | pool => .named "datasets" .dataset
  | _ => .none

def hookOptions : List String := ["preCreateHook", "postCreateHook", "preMountHook", "postMountHook"]

end Kind

/-- Where a node stands: its path, the kind that its place asks for, its key in a collection, its position in a table. -/
structure Place where
  path : String
  kind : Kind
  key : Option Value := none
  position : Option Nat := none

namespace Place

def name? (p : Place) : Option String := p.key.map Value.toText

/-- The key as the default of an option. -/
def keyValue (p : Place) : Option Value := p.name?.map Value.text

end Place

namespace Spec

def defaultOptions : List String := ["defaults"]

/-- What a node of a kind declares.  The type of a dataset and the format of a table are values still; they are checked
once the nodes below have been read. -/
def read (p : Place) (d : Declared) : Except Fault (DatasetType → TableFormat → Spec) :=
  match p.kind with
  | .disk => do
    let name ← d.require "name" p.keyValue
    let device ← d.require "device" none
    return fun _ _ => .disk name device
  | .table => return fun _ format => .table format
  | .partition => do
    let index ← d.require "index" (p.position.map (fun n => .int (n + 1)))
    let flags ← d.list "flags" []
    return fun _ _ => .partition (d.getD "name" .null) (d.getD "part-type" (.text "primary")) (d.getD "fs-type" .null)
      (d.getD "start" (.text "0%")) (d.getD "end" (.text "100%")) index flags (d.getD "bootable" (.bool false))
  | .filesystem => do
    let format ← d.require "format" none
    let mountpoint ← d.mountpoint "mountpoint" none
    let extraArgs ← d.arguments "extraArgs"
    let mountOptions ← d.list "mountOptions" defaultOptions
    return fun _ _ => .filesystem format mountpoint extraArgs mountOptions
  | .btrfs => do
    let extraArgs ← d.arguments "extraArgs"
    let mountOptions ← d.list "mountOptions" defaultOptions
    let mountpoint ← d.mountpoint? "mountpoint"
    return fun _ _ => .btrfs extraArgs mountOptions mountpoint
  | .subvolume => do
    let name ← d.require "name" p.keyValue
    let extraArgs ← d.arguments "extraArgs"
    let mountOptions ← d.list "mountOptions" defaultOptions
    let mountpoint ← d.mountpoint? "mountpoint"
    return fun _ _ => .subvolume name extraArgs mountOptions mountpoint
  | .swap => return fun _ _ => .swap (d.getD "randomEncryption" (.bool false))
  | .physicalVolume => do
    let group ← d.require "vg" none
    return fun _ _ => .physicalVolume group
  | .volumeGroup => do
    let name ← d.require "name" p.keyValue
    return fun _ _ => .volumeGroup name
  | .logicalVolume => do
    let name ← d.require "name" p.keyValue
    let size ← d.require "size" none
    let extraArgs ← d.arguments "extraArgs"
    return fun _ _ => .logicalVolume name size (d.getD "lvm_type" .null) extraArgs
  | .poolMember => do
    let pool ← d.require "pool" none
    return fun _ _ => .poolMember pool
  | .pool => do
    let name ← d.require "name" p.keyValue
    let options ← d.properties "options"
    let rootOptions ← d.properties "rootFsOptions"
    let mountpoint ← d.mountpoint? "mountpoint"
    let mountOptions ← d.list "mountOptions" defaultOptions
    return fun _ _ => .pool name (d.getD "mode" (.text "")) options rootOptions mountpoint mountOptions
  | .dataset => do
    let name ← d.require "name" p.keyValue
    let _ ← d.require "zfs_type" none
    let options ← d.properties "options"
    let mountOptions ← d.list "mountOptions" defaultOptions
    let mountpoint ← d.mountpoint? "mountpoint"
    return fun type _ => .dataset name type options mountOptions mountpoint (d.getD "size" .null)
  | .arrayMember => do
    let name ← d.require "name" none
    return fun _ _ => .arrayMember name
  | .array => do
    let name ← d.require "name" p.keyValue
    return fun _ _ => .array name (d.getD "level" (.int 1)) (d.getD "metadata" (.text "default"))
  | .luks => do
    let name ← d.require "name" none
    let extraArgs ← d.arguments "extraArgs"
    return fun _ _ => .luks name (d.getD "keyFile" .null) extraArgs
  | .nodev => do
    let fsType ← d.require "fsType" none
    let mountpoint ← d.mountpoint "mountpoint" p.keyValue
    let mountOptions ← d.list "mountOptions" defaultOptions
    return fun _ _ => .nodev fsType (d.getD "device" (.text "none")) mountpoint mountOptions

/-- The type of a dataset: a volume has to have a size. -/
def readDatasetType (d : Declared) : Except Fault DatasetType :=
  let type := d.getD "zfs_type" .null
  match DatasetType.ofValue? type with
  | none => .error (.layout d.path (.badDatasetType type))
  | some .volume => if (d.get? "size").isNone then .error (.layout d.path .missingVolumeSize) else .ok .volume
  | some .filesystem => .ok .filesystem

def readTableFormat (d : Declared) : Except Fault TableFormat :=
  let format := d.getD "format" (.text "gpt")
  match TableFormat.ofValue? format with
  | none => .error (.layout d.path (.badTableFormat format))
  | some f => .ok f

/-- The checks that follow the nodes below. -/
def finish (p : Place) (d : Declared) (spec : DatasetType → TableFormat → Spec) : Except Fault Spec :=
  match p.kind with
  | .dataset => do return spec (← readDatasetType d) .gpt
  | .table => do return spec .filesystem (← readTableFormat d)
  | _ => .ok (spec .filesystem .gpt)

end Spec

namespace Hooks

/-- Hooks are texts. -/
def check (es : Entries) : Except Fault Unit := Value.requireWritable (Kind.hookOptions.map (Entries.field es))

/-- A hook that is not given is empty. -/
def textOf (v : Value) : String := if v.isGiven then v.toText else ""

def read (es : Entries) : Hooks :=
  ⟨textOf (Entries.field es "preCreateHook"), textOf (Entries.field es "postCreateHook"),
   textOf (Entries.field es "preMountHook"), textOf (Entries.field es "postMountHook")⟩

end Hooks

namespace Value

def option? (v : Value) (option : String) : Option Value :=
  match v with
  | map es => Entries.get? es (.text option)
  | _ => none

theorem sizeOf_entry_lt {es : Entries} {e : Value × Value} (h : e ∈ es) : sizeOf e.2 < sizeOf (map es) := by
  have := List.sizeOf_lt_of_mem h
  obtain ⟨k, v⟩ := e
  simp only [Prod.mk.sizeOf_spec, map.sizeOf_spec] at this ⊢
  omega

theorem sizeOf_option?_lt {v w : Value} {option : String} (h : v.option? option = some w) : sizeOf w < sizeOf v := by
  unfold option? at h
  split at h
  · obtain ⟨e, he, rfl⟩ := Option.map_eq_some_iff.1 h
    exact sizeOf_entry_lt (List.mem_of_find?_eq_some he)
  · cases h

/-- A value smaller than another. -/
abbrev Part (v : Value) := { w : Value // sizeOf w < sizeOf v }

/-- An entry whose value is smaller than another. -/
abbrev PartEntry (v : Value) := { e : Value × Value // sizeOf e.2 < sizeOf v }

/-- The part of a value under an option, null counting as absent; it is smaller than the whole. -/
def part? (v : Value) (option : String) : Option (Part v) :=
  match h : v.option? option with
  | some .null => none
  | some w => some ⟨w, sizeOf_option?_lt h⟩
  | none => none

/-- The entries of a mapping, each value smaller than the whole. -/
def parts : (v : Value) → List (PartEntry v)
  | map es => es.attach.map (fun e => ⟨e.1, sizeOf_entry_lt e.2⟩)
  | _ => []

theorem sizeOf_item_lt {xs : List Value} {x : Value} (h : x ∈ xs) : sizeOf x < sizeOf (list xs) := by
  have := List.sizeOf_lt_of_mem h
  simp only [list.sizeOf_spec]
  omega

theorem sizeOf_first_lt (k v : Value) : sizeOf k < sizeOf (pair k v) := by
  simp only [pair.sizeOf_spec]
  omega

theorem sizeOf_second_lt (k v : Value) : sizeOf v < sizeOf (pair k v) := by
  simp only [pair.sizeOf_spec]
  omega

def items : (v : Value) → List (Part v)
  | list xs => xs.attach.map (fun x => ⟨x.1, sizeOf_item_lt x.2⟩)
  | pair k v => [⟨k, sizeOf_first_lt k v⟩, ⟨v, sizeOf_second_lt k v⟩]
  | _ => []

end Value

namespace Node

/-- Lists a node: one of the same key is replaced where it stands. -/
def put : List Node → Node → List Node
  | [], n => [n]
  | m :: ms, n => if m.key = n.key then n :: ms else m :: put ms n

theorem put_eq_append {ns : List Node} {n : Node} (h : ∀ m ∈ ns, m.key ≠ n.key) : put ns n = ns ++ [n] := by
  induction ns with
  | nil => rfl
  | cons m ms ih =>
    rw [put, if_neg (h m List.mem_cons_self), ih (fun k hk => h k (List.mem_cons_of_mem _ hk))]
    rfl

def ofList (ns : List Node) : List Node := ns.foldl put []

/-- The keys of a mapping that are not among its known ones, sorted; keys that are no texts cannot be listed. -/
def unknownKeys (es : Entries) (known : List String) : Except Fault (List String) := do
  let unknown := es.filterMap (fun e => match e.1 with
    | .text s => if known.contains s then none else some (some s)
    | _ => some none)
  if unknown.any Option.isNone then throw (.misuse .wrongOperand)
  return (unknown.filterMap id).mergeSort (fun s t => s ≤ t)

/-- A node declares the kind that its place asks for, or none. -/
def checkKind (path kind : String) (es : Entries) : Except Fault Unit :=
  match (Entries.get? es (.text "type")).getD (.text kind) with
  | .text s =>
    if (Kind.ofName? s).isNone then .error (.layout path (.unknownKind (.text s)))
    else if s = kind then .ok ()
    else .error (.layout path (.otherKind kind (.text s)))
  | v => if v.isKey then .error (.layout path (.unknownKind v)) else .error (.misuse .unhashable)

/-- The kind of a node in a content slot, which it has to declare. -/
def contentKind (slot : Slot) (path : String) (v : Value) : Except Fault Kind :=
  match v with
  | .map es =>
    match Entries.field es "type" with
    | .null => .error (.layout path (.missing "type"))
    | .text s =>
      match Kind.ofName? s with
      | none => .error (.layout path (.unknownKind (.text s)))
      | some k => if slot.takes k then .ok k else .error (.layout path (.notPlaceable k slot))
    | t => if t.isKey then .error (.layout path (.unknownKind t)) else .error (.misuse .unhashable)
  | v => .error (.layout path (.notContent v))

/-- The partitions of a table have positive numbers, none of them twice.  `seen` are the numbers before. -/
def checkIndices (path : String) : List (Nat × Nat) → Nat → List Node → Except Fault Unit
  | _, _, [] => .ok ()
  | seen, position, n :: ns =>
    let here (i : Nat) := path ++ "[" ++ toString i ++ "]"
    let index := match n.spec with
      | .partition _ _ _ _ _ index _ _ => index
      | _ => .null
    match index with
    | .int (.ofNat (i + 1)) =>
      match seen.find? (fun s => s.1 == i + 1) with
      | some s => .error (.layout (here position) (.takenIndex (i + 1) (here s.2)))
      | none => checkIndices path ((i + 1, position) :: seen) (position + 1) ns
    | v => .error (.layout (here position) (.badIndex v))

def requireItems (path : String) : Value → Except Fault Unit
  | .list _ | .pair _ _ => .ok ()
  | v => .error (.layout path (.notPartitions v))

def requireEntries (path : String) (kind : Kind) : Value → Except Fault Unit
  | .map _ => .ok ()
  | v => .error (.layout path (.notChildren kind v))

def warnUnknown (path : String) (unknown : List String) : Logged Unit :=
  if unknown.isEmpty then pure ()
  else logWarning (path ++ ": ignoring unknown option(s) " ++ ", ".intercalate unknown)

mutual

/-- Reads a node and all below it.  The key under which it stands has to have a text. -/
def read (raw : Value) (p : Place) : Logged Node := do
  Value.requireWritable p.key.toList
  match raw with
  | .map es =>
    checkKind p.path p.kind.name es
    let unknown ← unknownKeys es ("type" :: p.kind.options ++ Kind.hookOptions)
    warnUnknown p.path unknown
    let d : Declared := ⟨p.path, es⟩
    let spec ← Spec.read p d
    let children ← readBelow (.map es) d p.kind.holding
    let spec ← Spec.finish p d spec
    Hooks.check es
    return ⟨p.name?.getD "", spec, Hooks.read es, children⟩
  | v => .fail (.layout p.path (.notNode p.kind.name v))
termination_by 2 * sizeOf raw + 1
decreasing_by exact Nat.lt_succ_self _

def readBelow (raw : Value) (d : Declared) : Kind.Holding → Logged (List Node)
  | .none => pure []
  | .content slot =>
    match raw.part? "content" with
    | none => pure []
    | some ⟨v, _⟩ => do
      let path := d.place "content"
      let kind ← contentKind slot path v
      let node ← read v ⟨path, kind, none, none⟩
      pure [node]
  | .partitions =>
    match raw.part? "partitions" with
    | none => pure []
    | some ⟨v, _⟩ => do
      let path := d.place "partitions"
      requireItems path v
      let nodes ← v.items.zipIdx.mapM (fun ((⟨x, _⟩, i) : v.Part × Nat) =>
        read x ⟨path ++ "[" ++ toString i ++ "]", .partition, none, some i⟩)
      checkIndices path [] 0 nodes
      pure nodes
  | .named option kind =>
    match raw.part? option with
    | none => pure []
    | some ⟨v, _⟩ => do
      let path := d.place option
      requireEntries path kind v
      let nodes ← v.parts.mapM (fun (⟨(k, x), _⟩ : v.PartEntry) =>
        read x ⟨path ++ "." ++ k.toText, kind, some k, none⟩)
      pure (ofList nodes)
termination_by 2 * sizeOf raw
decreasing_by
  · omega
  · omega
  · simp only at *
    omega

end

/-- Reads a node of a kind given by name; no node is of a kind that is not known. -/
def readNamed (raw : Value) (path kind : String) (key : Option Value) (position : Option Nat) : Logged Node := do
  match Kind.ofName? kind with
  | some k => read raw ⟨path, k, key, position⟩
  | none =>
    match raw with
    | .map es =>
      checkKind path kind es
      .fail (.layout path (.unknownKind (.text kind)))
    | v => .fail (.layout path (.notNode kind v))

end Node

namespace Layout

def readGroup (es : Entries) (g : Group) : Logged (List Node) := do
  let entries := Entries.field es g.name
  if !entries.isGiven then return []
  match entries with
  | .map named =>
    let nodes ← named.mapM (fun e => Node.read e.2 ⟨g.name ++ "." ++ e.1.toText, g.kind, some e.1, none⟩)
    return Node.ofList nodes
  | v => .fail (.layout g.name (.notDevices v))

/-- The mapping of groups, which may be wrapped in the single key `devices`. -/
def unwrap : Value → Value
  | .map [(.text "devices", v)] => v
  | v => v

def read (tree : Value) : Logged Layout := do
  match unwrap tree with
  | .map es =>
    let unknown ← Node.unknownKeys es (Group.all.map Group.name)
    if !unknown.isEmpty then .fail (.unknownGroups unknown)
    let groups ← Group.all.mapM (fun g => do
      let nodes ← readGroup es g
      return (g, nodes))
    logDebug ("Parsed layout with " ++
      ", ".intercalate (groups.map (fun (g, ns) => toString ns.length ++ " " ++ g.name)))
    return ⟨groups.flatMap (fun (g, ns) => ns.map (⟨g, ·⟩))⟩
  | v => .fail (.notLayout v)

end Layout

end Provision
