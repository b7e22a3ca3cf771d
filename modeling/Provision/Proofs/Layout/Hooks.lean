import Provision.Layout.Read
import Provision.Proofs.Metadata
/-!
# Layouts without their hooks

`Value.without` leaves hooks out of a node as a layout writes it, and out of all nodes below; `Node.mapHooks` changes
them in a tree that was read.  Only a hook that has a text is left out: one that has none, an integer of too many
digits, is a fault wherever it stands.  Reading a layout without some hooks gives the layout with these hooks empty, the
same messages and the same faults (`Layout.read_without`).
-/
namespace Provision

open Value (Entries)

/-! ## Leaving hooks out -/

namespace Kind.Holding

def option? : Holding → Option String
  | none => .none
  | content _ => some "content"
  | partitions => some "partitions"
  | named option _ => some option

end Kind.Holding

namespace Value

def isNamedIn (names : List String) : Value → Bool
  | text s => names.contains s
  | _ => false

def declaredKind? (es : Entries) : Option Kind :=
  match Entries.field es "type" with
  | text s => Kind.ofName? s
  | _ => none

def textHooks (hooks : List String) (es : Entries) : List String := hooks.filter (fun s => (Entries.field es s).isWritable)

mutual

/-- A node of a kind without the texts of some hooks, its own and those of the nodes below. -/
def without (hooks : List String) (kind : Kind) : Value → Value
  | map es => map (entriesWithout hooks (textHooks hooks es) kind.holding es)
  | v => v

def entriesWithout (hooks own : List String) (holding : Kind.Holding) : List (Value × Value) → List (Value × Value)
  | [] => []
  | (k, v) :: es =>
    if isNamedIn own k then entriesWithout hooks own holding es
    else (k, heldWithout hooks holding k v) :: entriesWithout hooks own holding es

def heldWithout (hooks : List String) : Kind.Holding → Value → Value → Value
  | .content _, text "content", map es =>
    match declaredKind? es with
    | some kind => map (entriesWithout hooks (textHooks hooks es) kind.holding es)
    | none => map es
  | .partitions, text "partitions", list xs => list (itemsWithout hooks xs)
  | .partitions, text "partitions", pair x y => pair (without hooks .partition x) (without hooks .partition y)
  | .named option kind, text s, map es => if s = option then map (childrenWithout hooks kind es) else map es
  | _, _, v => v

def itemsWithout (hooks : List String) : List Value → List Value
  | [] => []
  | x :: xs => without hooks .partition x :: itemsWithout hooks xs

def childrenWithout (hooks : List String) (kind : Kind) : List (Value × Value) → List (Value × Value)
  | [] => []
  | (k, v) :: es => (k, without hooks kind v) :: childrenWithout hooks kind es

end

def groupWithout (hooks : List String) : Value → Value → Value
  | text s, map devices =>
    match Group.all.find? (fun g => g.name == s) with
    | some g => map (childrenWithout hooks g.kind devices)
    | none => map devices
  | _, v => v

def groupsWithout (hooks : List String) : Value → Value
  | map es => map (es.map (fun e => (e.1, groupWithout hooks e.1 e.2)))
  | v => v

/-- **A layout without the texts of some hooks** of its nodes. -/
def layoutWithout (hooks : List String) : Value → Value
  | map [(text "devices", v)] => map [(text "devices", groupsWithout hooks v)]
  | v => groupsWithout hooks v

theorem itemsWithout_eq_map (hooks : List String) (xs : List Value) :
    itemsWithout hooks xs = xs.map (without hooks .partition) := by
  induction xs with
  | nil => rfl
  | cons x xs ih => rw [itemsWithout, ih, List.map_cons]

theorem childrenWithout_eq_map (hooks : List String) (kind : Kind) (es : Entries) :
    childrenWithout hooks kind es = es.map (fun e => (e.1, without hooks kind e.2)) := by
  induction es with
  | nil => rfl
  | cons e es ih =>
    obtain ⟨k, v⟩ := e
    rw [childrenWithout, ih, List.map_cons]

variable {hooks own : List String} {holding : Kind.Holding}

theorem textHooks_subset (hooks : List String) (es : Entries) : textHooks hooks es ⊆ hooks := List.filter_subset_self _

theorem get?_entriesWithout (es : Entries) (s : String) : Entries.get? (entriesWithout hooks own holding es) (text s) =
    if s ∈ own then none else (Entries.get? es (text s)).map (heldWithout hooks holding (text s)) := by
  induction es with
  | nil => simp [entriesWithout, Entries.get?]
  | cons e es ih =>
    obtain ⟨k, v⟩ := e
    by_cases hk : same (text s) k = true
    · obtain rfl := same_text_iff.1 hk
      by_cases hs : s ∈ own
      · rw [if_pos hs] at ih ⊢
        rw [entriesWithout, if_pos (by simpa [isNamedIn] using hs), ih]
      · rw [if_neg hs, entriesWithout, if_neg (by simpa [isNamedIn] using hs)]
        simp [Entries.get?, hk]
    · have hskip (w : Value) (fs : Entries) : Entries.get? ((k, w) :: fs) (text s) = Entries.get? fs (text s) := by
        simp [Entries.get?, hk]
      rw [hskip, ← ih, entriesWithout]
      split
      · rfl
      · exact hskip _ _

theorem heldWithout_of_ne {s : String} (h : holding.option? ≠ some s) (v : Value) :
    heldWithout hooks holding (text s) v = v := by
  unfold heldWithout
  split <;> simp_all [Kind.Holding.option?]
  exact fun e => absurd e.symm h

theorem field_entriesWithout {s : String} (hs : s ∉ own) (h : holding.option? ≠ some s) (es : Entries) :
    Entries.field (entriesWithout hooks own holding es) s = Entries.field es s := by
  rw [Entries.field, Entries.field, get?_entriesWithout, if_neg hs]
  cases Entries.get? es (text s) with
  | none => rfl
  | some v => exact heldWithout_of_ne h v

theorem isNull_heldWithout (option v : Value) : (heldWithout hooks holding option v).isNull = v.isNull := by
  fun_cases heldWithout hooks holding option v <;> simp_all [isNull]

end Value

/-! ## Hooks of a tree -/

namespace Hooks

def without (names : List String) (h : Hooks) : Hooks :=
  let cut (name text : String) := if name ∈ names then "" else text
  ⟨cut "preCreateHook" h.preCreate, cut "postCreateHook" h.postCreate, cut "preMountHook" h.preMount,
   cut "postMountHook" h.postMount⟩

variable {hooks own : List String} {holding : Kind.Holding}

theorem field_entriesWithout (h : ∀ s ∈ holding.option?, s ∉ Kind.hookOptions) (es : Entries) {s : String}
    (hs : s ∈ Kind.hookOptions) : Entries.field (Value.entriesWithout hooks own holding es) s =
      if s ∈ own then .null else Entries.field es s := by
  split
  · rename_i hn
    rw [Entries.field, Value.get?_entriesWithout, if_pos hn]
    rfl
  · rename_i hn
    rw [Value.field_entriesWithout hn fun e => h s e hs]

theorem read_entriesWithout (h : ∀ s ∈ holding.option?, s ∉ Kind.hookOptions) (es : Entries) :
    read (Value.entriesWithout hooks own holding es) = (read es).without own := by
  have htext (s : String) (hs : s ∈ Kind.hookOptions) :
      textOf (Entries.field (Value.entriesWithout hooks own holding es) s) =
      if s ∈ own then "" else textOf (Entries.field es s) := by
    rw [field_entriesWithout h es hs]
    split <;> rfl
  rw [read, htext _ (by decide), htext _ (by decide), htext _ (by decide), htext _ (by decide)]
  rfl

theorem check_eq_ok_iff {es : Entries} :
    check es = .ok () ↔ ∀ s ∈ Kind.hookOptions, (Entries.field es s).isWritable = true := by
  rw [check, Value.requireWritable_eq_ok_iff, List.forall_mem_map]

theorem check_eq_error_iff {es : Entries} {f : Fault} : check es = .error f ↔
    ∃ s ∈ Kind.hookOptions, (Entries.field es s).isWritable = false ∧ f = .misuse .unwritable := by
  rw [check, Value.requireWritable_eq_error_iff, ← Bool.not_eq_true, Value.areWritable_iff, List.forall_mem_map]
  simp only [not_forall, exists_prop, Bool.not_eq_true, ← exists_and_right, and_assoc]

theorem check_entriesWithout (h : ∀ s ∈ holding.option?, s ∉ Kind.hookOptions) (es : Entries) :
    check (Value.entriesWithout hooks (Value.textHooks hooks es) holding es) = check es := by
  have hsame (s : String) (hs : s ∈ Kind.hookOptions) :
      (Entries.field (Value.entriesWithout hooks (Value.textHooks hooks es) holding es) s).isWritable =
        (Entries.field es s).isWritable := by
    rw [field_entriesWithout h es hs]
    split
    · rename_i hn
      exact (List.mem_filter.1 hn).2.symm
    · rfl
  have hiff : check (Value.entriesWithout hooks (Value.textHooks hooks es) holding es) = .ok () ↔ check es = .ok () := by
    rw [check_eq_ok_iff, check_eq_ok_iff]
    exact forall₂_congr fun s hs => by rw [hsame s hs]
  exact Value.requireWritable_congr hiff

theorem textHooks_of_check (hhooks : hooks ⊆ Kind.hookOptions) {es : Entries} (h : check es = .ok ()) :
    Value.textHooks hooks es = hooks :=
  List.filter_eq_self.2 fun s hs => check_eq_ok_iff.1 h s (hhooks hs)

end Hooks

namespace Node

mutual

def mapHooks (f : Hooks → Hooks) : Node → Node
  | ⟨key, spec, hooks, children⟩ => ⟨key, spec, f hooks, mapHooksAll f children⟩

def mapHooksAll (f : Hooks → Hooks) : List Node → List Node
  | [] => []
  | n :: ns => mapHooks f n :: mapHooksAll f ns

end

theorem mapHooksAll_eq_map (f : Hooks → Hooks) (ns : List Node) : mapHooksAll f ns = ns.map (mapHooks f) := by
  induction ns with
  | nil => rfl
  | cons n ns ih => rw [mapHooksAll, ih, List.map_cons]

@[simp] theorem key_mapHooks (f : Hooks → Hooks) (n : Node) : (n.mapHooks f).key = n.key := by cases n; rfl

@[simp] theorem spec_mapHooks (f : Hooks → Hooks) (n : Node) : (n.mapHooks f).spec = n.spec := by cases n; rfl

theorem put_mapHooks (f : Hooks → Hooks) (ns : List Node) (n : Node) :
    put (ns.map (mapHooks f)) (n.mapHooks f) = (put ns n).map (mapHooks f) := by
  induction ns with
  | nil => rfl
  | cons m ms ih =>
    rw [List.map_cons, put, put, key_mapHooks, key_mapHooks, ih]
    split <;> rfl

theorem foldl_put_mapHooks (f : Hooks → Hooks) : ∀ ns acc : List Node,
    (ns.map (mapHooks f)).foldl put (acc.map (mapHooks f)) = (ns.foldl put acc).map (mapHooks f)
  | [], _ => rfl
  | n :: ns, acc => by rw [List.map_cons, List.foldl_cons, put_mapHooks, foldl_put_mapHooks f ns, List.foldl_cons]

theorem ofList_mapHooks (f : Hooks → Hooks) (ns : List Node) : ofList (ns.map (mapHooks f)) = (ofList ns).map (mapHooks f) :=
  foldl_put_mapHooks f ns []

theorem checkIndices_mapHooks (f : Hooks → Hooks) (path : String) :
    ∀ (ns : List Node) (seen : List (Nat × Nat)) (position : Nat),
    checkIndices path seen position (ns.map (mapHooks f)) = checkIndices path seen position ns
  | [], _, _ => rfl
  | n :: ns, seen, position => by
    rw [List.map_cons, checkIndices, checkIndices]
    simp only [spec_mapHooks, checkIndices_mapHooks f path ns]

/-! ## Reading -/

/-- A key that is not known; none in its place if it is no text. -/
def unknownKey? (known : List String) : Value → Option (Option String)
  | .text s => if known.contains s then none else some (some s)
  | _ => some none

theorem unknownKeys_eq (es : Entries) (known : List String) : unknownKeys es known =
    let unknown := es.filterMap (fun e => unknownKey? known e.1)
    if unknown.any Option.isNone then .error (.misuse .wrongOperand)
    else .ok ((unknown.filterMap id).mergeSort (fun s t => s ≤ t)) := rfl

theorem unknownKeys_entriesWithout {hooks own known : List String} (h : own ⊆ known) (holding : Kind.Holding)
    (es : Entries) :
    unknownKeys (Value.entriesWithout hooks own holding es) known = unknownKeys es known := by
  have hknown (k : Value) (hk : Value.isNamedIn own k = true) : unknownKey? known k = none := by
    cases k with
    | text s => simpa [unknownKey?] using h (by simpa [Value.isNamedIn] using hk)
    | _ => cases hk
  have hsame : (Value.entriesWithout hooks own holding es).filterMap (fun e => unknownKey? known e.1) =
      es.filterMap (fun e => unknownKey? known e.1) := by
    induction es with
    | nil => rfl
    | cons e es ih =>
      obtain ⟨k, v⟩ := e
      rw [Value.entriesWithout]
      split
      · rename_i hk
        simp only [List.filterMap_cons, hknown k hk, ih]
      · simp only [List.filterMap_cons, ih]
  rw [unknownKeys_eq, unknownKeys_eq, hsame]

end Node

namespace Spec

/-- What a node declares is read from the options of its kind that hold no nodes. -/
theorem read_congr {p : Place} (d d' : Declared) (hpath : d'.path = d.path)
    (h : ∀ s ∈ p.kind.options, p.kind.holding.option? ≠ some s → d'.get? s = d.get? s) : Spec.read p d' = Spec.read p d := by
  obtain ⟨path, kind, key, position⟩ := p
  cases kind <;>
    simp_all [Spec.read, Kind.options, Kind.holding, Kind.Holding.option?, Declared.require, Declared.getD, Declared.list,
      Declared.arguments, Declared.properties, Declared.mountpoint, Declared.mountpoint?, Declared.place]

theorem finish_congr {p : Place} (d d' : Declared) (hpath : d'.path = d.path)
    (h : ∀ s ∈ p.kind.options, p.kind.holding.option? ≠ some s → d'.get? s = d.get? s)
    (spec : DatasetType → TableFormat → Spec) : Spec.finish p d' spec = Spec.finish p d spec := by
  obtain ⟨path, kind, key, position⟩ := p
  cases kind <;>
    simp_all [Spec.finish, Spec.readDatasetType, Spec.readTableFormat, Kind.options, Kind.holding, Kind.Holding.option?,
      Declared.getD]

end Spec

/-! ## The values that nodes are read from -/

namespace Value

def given? (v : Value) (option : String) : Option Value :=
  match v.option? option with
  | some .null => none
  | w => w

theorem map_val_part? (v : Value) (option : String) : (v.part? option).map Subtype.val = v.given? option := by
  unfold part? given?
  split <;> simp_all

def itemList : Value → List Value
  | list xs => xs
  | pair k v => [k, v]
  | _ => []

theorem map_val_items (v : Value) : v.items.map Subtype.val = v.itemList := by
  cases v with
  | list xs => simp [items, itemList]
  | _ => rfl

def entryList : Value → Entries
  | map es => es
  | _ => []

theorem map_val_parts (v : Value) : v.parts.map Subtype.val = v.entryList := by
  cases v with
  | map es =>
    rw [parts, List.map_map]
    exact List.attach_map_subtype_val es
  | _ => rfl

theorem sizeOf_le_of_mem_itemList {v w : Value} (h : w ∈ v.itemList) : sizeOf w ≤ sizeOf v := by
  rw [← map_val_items] at h
  obtain ⟨x, -, rfl⟩ := List.mem_map.1 h
  exact Nat.le_of_lt x.2

theorem sizeOf_le_of_mem_entryList {v : Value} {e : Value × Value} (h : e ∈ v.entryList) : sizeOf e.2 ≤ sizeOf v := by
  rw [← map_val_parts] at h
  obtain ⟨x, -, rfl⟩ := List.mem_map.1 h
  exact Nat.le_of_lt x.2

theorem sizeOf_lt_of_given? {v w : Value} {option : String} (h : v.given? option = some w) : sizeOf w < sizeOf v := by
  rw [← map_val_part?] at h
  obtain ⟨x, -, rfl⟩ := Option.map_eq_some_iff.1 h
  exact x.2

end Value

namespace Node

def readHeld (d : Declared) : Kind.Holding → Value → Logged (List Node)
  | .none, _ => pure []
  | .content slot, v => do
    let kind ← contentKind slot (d.place "content") v
    let node ← read v ⟨d.place "content", kind, none, none⟩
    pure [node]
  | .partitions, v => do
    let path := d.place "partitions"
    requireItems path v
    let nodes ← v.itemList.zipIdx.mapM (fun xi =>
      read xi.1 ⟨path ++ "[" ++ toString xi.2 ++ "]", .partition, none, some xi.2⟩)
    checkIndices path [] 0 nodes
    pure nodes
  | .named option kind, v => do
    let path := d.place option
    requireEntries path kind v
    let nodes ← v.entryList.mapM (fun e => read e.2 ⟨path ++ "." ++ e.1.toText, kind, some e.1, none⟩)
    pure (ofList nodes)

theorem readBelow_eq (raw : Value) (d : Declared) (holding : Kind.Holding) :
    readBelow raw d holding = match holding.option?.bind raw.given? with
      | none => pure []
      | some v => readHeld d holding v := by
  cases holding with
  | none => rw [readBelow]; rfl
  | content slot =>
    rw [readBelow, Kind.Holding.option?, Option.bind_some, ← Value.map_val_part?]
    cases raw.part? "content" <;> rfl
  | partitions =>
    rw [readBelow, Kind.Holding.option?, Option.bind_some, ← Value.map_val_part?]
    cases raw.part? "partitions" with
    | none => rfl
    | some v =>
      obtain ⟨v, hv⟩ := v
      simp only [Option.map_some, readHeld, ← Value.map_val_items, List.zipIdx_map, List.mapM_map]
      rfl
  | named option kind =>
    rw [readBelow, Kind.Holding.option?, Option.bind_some, ← Value.map_val_part?]
    cases raw.part? option with
    | none => rfl
    | some v =>
      obtain ⟨v, hv⟩ := v
      simp only [Option.map_some, readHeld, ← Value.map_val_parts, List.mapM_map]
      rfl

end Node

/-! ## Reading without hooks -/

namespace Kind

theorem notMem_of_option?_holding : ∀ (k : Kind) {s : String}, k.holding.option? = some s → s ∉ "type" :: hookOptions := by
  intro k s h
  cases k <;> simp only [holding, Holding.option?, reduceCtorEq, Option.some.injEq] at h <;> subst h <;> decide

theorem notMem_hookOptions : ∀ (k : Kind), ∀ s ∈ k.options, s ∉ hookOptions := by
  intro k
  cases k <;> decide

end Kind

section Reading

variable {hooks own : List String}

theorem checkKind_entriesWithout (hown : own ⊆ Kind.hookOptions) (path kind : String) (holding : Kind.Holding)
    (h : holding.option? ≠ some "type")
    (es : Entries) :
    Node.checkKind path kind (Value.entriesWithout hooks own holding es) = Node.checkKind path kind es := by
  have htype : "type" ∉ own := fun h => absurd (hown h) (by decide)
  have hget : Entries.get? (Value.entriesWithout hooks own holding es) (.text "type") = Entries.get? es (.text "type") := by
    rw [Value.get?_entriesWithout, if_neg htype]
    cases Entries.get? es (.text "type") with
    | none => rfl
    | some v => rw [Option.map_some, Value.heldWithout_of_ne h]
  rw [Node.checkKind, Node.checkKind, hget]

theorem given?_entriesWithout {holding : Kind.Holding} {s : String} (hs : s ∉ own) (es : Entries) :
    (Value.map (Value.entriesWithout hooks own holding es)).given? s =
      ((Value.map es).given? s).map (Value.heldWithout hooks holding (.text s)) := by
  have hgiven (v : Value) : v.given? s = (v.option? s).filter (fun w => !w.isNull) := by
    unfold Value.given?
    cases v.option? s with
    | none => rfl
    | some w => cases w <;> rfl
  have hnull : (fun w : Value => !w.isNull) ∘ Value.heldWithout hooks holding (.text s) = fun w => !w.isNull :=
    funext fun w => congrArg not (Value.isNull_heldWithout (.text s) w)
  rw [hgiven, hgiven, Value.option?, Value.option?, Value.get?_entriesWithout, if_neg hs, Option.filter_map, hnull]

theorem itemList_heldWithout (v : Value) : (Value.heldWithout hooks .partitions (.text "partitions") v).itemList =
    v.itemList.map (Value.without hooks .partition) := by
  cases v <;> simp [Value.heldWithout, Value.itemList, Value.itemsWithout_eq_map]

theorem requireItems_heldWithout (path : String) (v : Value) :
    Node.requireItems path (Value.heldWithout hooks .partitions (.text "partitions") v) = Node.requireItems path v := by
  cases v <;> rfl

theorem entryList_heldWithout (option : String) (kind : Kind) (v : Value) :
    (Value.heldWithout hooks (.named option kind) (.text option) v).entryList =
      v.entryList.map (fun e => (e.1, Value.without hooks kind e.2)) := by
  cases v <;> simp [Value.heldWithout, Value.entryList, Value.childrenWithout_eq_map]

theorem requireEntries_heldWithout (path option : String) (kind : Kind) (v : Value) :
    Node.requireEntries path kind (Value.heldWithout hooks (.named option kind) (.text option) v) =
      Node.requireEntries path kind v := by
  cases v <;> simp [Value.heldWithout, Node.requireEntries]

theorem field_type_entriesWithout (hown : own ⊆ Kind.hookOptions) (kind : Kind) (es : Entries) :
    Entries.field (Value.entriesWithout hooks own kind.holding es) "type" = Entries.field es "type" :=
  Value.field_entriesWithout (fun h => absurd (hown h) (by decide))
    (fun h => kind.notMem_of_option?_holding h List.mem_cons_self) es

theorem contentKind_heldWithout (hhooks : hooks ⊆ Kind.hookOptions) (slot : Slot) (path : String) (v : Value) :
    Node.contentKind slot path (Value.heldWithout hooks (.content slot) (.text "content") v) =
    Node.contentKind slot path v := by
  cases v with
  | map es =>
    rw [Value.heldWithout]
    split
    · rw [Node.contentKind, Node.contentKind,
        field_type_entriesWithout (List.Subset.trans (Value.textHooks_subset hooks es) hhooks)]
    · rfl
  | _ => rfl

theorem heldWithout_of_contentKind {slot : Slot} {path : String} {v : Value} {k : Kind}
    (h : Node.contentKind slot path v = .ok k) :
    Value.heldWithout hooks (.content slot) (.text "content") v = v.without hooks k := by
  cases v with
  | map es =>
    have hkind : Value.declaredKind? es = some k := by
      simp only [Node.contentKind] at h
      unfold Value.declaredKind?
      split at h
      · cases h
      · rename_i s htype
        rw [htype]
        split at h
        · cases h
        · rename_i k' hk
          split at h
          · cases h
            exact hk
          · cases h
      · split at h <;> cases h
    rw [Value.heldWithout, hkind, Value.without]
  | _ => cases h

variable (hhooks : hooks ⊆ Kind.hookOptions)
include hhooks

theorem readHeld_heldWithout {holding : Kind.Holding} {s : String} (hs : holding.option? = some s) {d d' : Declared}
    (hpath : d'.path = d.path) {v : Value}
    (ih : ∀ w p, sizeOf w ≤ sizeOf v →
      Node.read (w.without hooks p.kind) p = Node.mapHooks (Hooks.without hooks) <$> Node.read w p) :
    Node.readHeld d' holding (Value.heldWithout hooks holding (.text s) v) =
      List.map (Node.mapHooks (Hooks.without hooks)) <$> Node.readHeld d holding v := by
  have hplace (option : String) : d'.place option = d.place option := by rw [Declared.place, Declared.place, hpath]
  cases holding with
  | none => cases hs
  | content slot =>
    obtain rfl := Option.some.inj hs
    simp only [Node.readHeld, hplace, contentKind_heldWithout hhooks, map_bind]
    cases hk : Node.contentKind slot (d.place "content") v with
    | error e => rfl
    | ok k =>
      rw [heldWithout_of_contentKind hk, Traced.liftM_ok_bind, Traced.liftM_ok_bind,
        ih v ⟨d.place "content", k, none, none⟩ (Nat.le_refl _)]
      simp
  | partitions =>
    obtain rfl := Option.some.inj hs
    simp only [Node.readHeld, hplace, requireItems_heldWithout, itemList_heldWithout, map_bind]
    refine bind_congr fun _ => ?_
    have hread (x : Value × Nat) (hx : x ∈ v.itemList.zipIdx) :=
      ih x.1 ⟨d.place "partitions" ++ "[" ++ toString x.2 ++ "]", .partition, none, some x.2⟩
        (Value.sizeOf_le_of_mem_itemList (List.fst_mem_of_mem_zipIdx hx))
    rw [List.zipIdx_map, List.mapM_map]
    simp only [Function.comp_def, Prod.map, id, mapM_eq_map_mapM hread]
    simp [Node.checkIndices_mapHooks]
  | named option kind =>
    obtain rfl := Option.some.inj hs
    simp only [Node.readHeld, hplace, requireEntries_heldWithout, entryList_heldWithout, map_bind]
    refine bind_congr fun _ => ?_
    have hread (e : Value × Value) (he : e ∈ v.entryList) :=
      ih e.2 ⟨d.place option ++ "." ++ e.1.toText, kind, some e.1, none⟩ (Value.sizeOf_le_of_mem_entryList he)
    rw [List.mapM_map]
    simp only [Function.comp_def, mapM_eq_map_mapM hread]
    simp [Node.ofList_mapHooks]

theorem readBelow_entriesWithout (k : Kind) (d d' : Declared) (hpath : d'.path = d.path) (es : Entries)
    (ih : ∀ w p, sizeOf w < sizeOf (Value.map es) →
      Node.read (w.without hooks p.kind) p = Node.mapHooks (Hooks.without hooks) <$> Node.read w p) :
    Node.readBelow (.map (Value.entriesWithout hooks (Value.textHooks hooks es) k.holding es)) d' k.holding =
      List.map (Node.mapHooks (Hooks.without hooks)) <$> Node.readBelow (.map es) d k.holding := by
  rw [Node.readBelow_eq, Node.readBelow_eq]
  cases hs : k.holding.option? with
  | none => simp
  | some s =>
    have hfree : s ∉ Value.textHooks hooks es := fun h =>
      k.notMem_of_option?_holding hs (List.mem_cons_of_mem _ (hhooks (Value.textHooks_subset hooks es h)))
    rw [Option.bind_some, Option.bind_some, given?_entriesWithout hfree]
    cases hv : (Value.map es).given? s with
    | none => simp
    | some v =>
      exact readHeld_heldWithout hhooks hs hpath fun w p hw => ih w p (Nat.lt_of_le_of_lt hw (Value.sizeOf_lt_of_given? hv))

/-- **Reading a node without some hooks** gives the node with these hooks empty. -/
theorem Node.read_without (raw : Value) (p : Place) :
    Node.read (raw.without hooks p.kind) p = Node.mapHooks (Hooks.without hooks) <$> Node.read raw p := by
  cases raw with
  | map es =>
    have hown : Value.textHooks hooks es ⊆ Kind.hookOptions := List.Subset.trans (Value.textHooks_subset hooks es) hhooks
    have hknown : Value.textHooks hooks es ⊆ "type" :: p.kind.options ++ Kind.hookOptions := fun s hs =>
      List.mem_append_right _ (hown hs)
    have hheld (s : String) (hs : p.kind.holding.option? = some s) := p.kind.notMem_of_option?_holding hs
    have hfree (s : String) (hs : s ∈ p.kind.holding.option?) : s ∉ Kind.hookOptions := fun h =>
      hheld s hs (List.mem_cons_of_mem _ h)
    have hget (s : String) (hs : s ∈ p.kind.options) (hne : p.kind.holding.option? ≠ some s) :
        (⟨p.path, Value.entriesWithout hooks (Value.textHooks hooks es) p.kind.holding es⟩ : Declared).get? s =
          (⟨p.path, es⟩ : Declared).get? s := by
      rw [Declared.get?, Declared.get?, Value.field_entriesWithout (fun h => p.kind.notMem_hookOptions s hs (hown h)) hne]
    have hspec := Spec.read_congr ⟨p.path, es⟩
      ⟨p.path, Value.entriesWithout hooks (Value.textHooks hooks es) p.kind.holding es⟩ rfl hget
    have hfinish := Spec.finish_congr ⟨p.path, es⟩
      ⟨p.path, Value.entriesWithout hooks (Value.textHooks hooks es) p.kind.holding es⟩ rfl hget
    have hbelow := readBelow_entriesWithout hhooks p.kind ⟨p.path, es⟩
      ⟨p.path, Value.entriesWithout hooks (Value.textHooks hooks es) p.kind.holding es⟩ rfl es fun w p' hw =>
      read_without w p'
    rw [Value.without, Node.read, Node.read, checkKind_entriesWithout hown _ _ _ fun h => hheld _ h List.mem_cons_self,
      Node.unknownKeys_entriesWithout hknown, Hooks.check_entriesWithout hfree]
    simp only [hspec, hfinish, hbelow, Hooks.read_entriesWithout hfree, map_bind, bind_map_left, map_pure]
    refine bind_congr fun _ => bind_congr fun _ => bind_congr fun _ => bind_congr fun _ => bind_congr fun _ => ?_
    refine bind_congr fun _ => bind_congr fun _ => ?_
    cases hcheck : Hooks.check es with
    | error f => rfl
    | ok =>
      rw [Hooks.textHooks_of_check hhooks hcheck, Traced.liftM_ok_bind, Traced.liftM_ok_bind, Node.mapHooks,
        Node.mapHooksAll_eq_map]
  | _ =>
    simp only [Value.without, Node.read, map_bind]
    rfl
termination_by sizeOf raw
decreasing_by simpa using hw

end Reading

/-! ## Reading a layout without hooks -/

def Device.mapHooks (f : Hooks → Hooks) (d : Device) : Device := ⟨d.group, d.node.mapHooks f⟩

namespace Layout

def mapHooks (f : Hooks → Hooks) (l : Layout) : Layout := ⟨l.devices.map (Device.mapHooks f)⟩

def gather (groups : List (Group × List Node)) : Logged Layout := do
  logDebug ("Parsed layout with " ++ ", ".intercalate (groups.map (fun (g, ns) => toString ns.length ++ " " ++ g.name)))
  return ⟨groups.flatMap (fun (g, ns) => ns.map (⟨g, ·⟩))⟩

theorem gather_mapHooks (f : Hooks → Hooks) (groups : List (Group × List Node)) :
    gather (groups.map (Prod.map id (List.map (Node.mapHooks f)))) = mapHooks f <$> gather groups := by
  simp [gather, mapHooks, Device.mapHooks, List.flatMap_map, List.map_flatMap, Function.comp_def]

section

variable {hooks : List String}

theorem unwrap_of_ne {v : Value} (h : ∀ w, v ≠ .map [(.text "devices", w)]) : unwrap v = v := by
  unfold unwrap
  split
  · exact absurd rfl (h _)
  · rfl

theorem unwrap_layoutWithout (tree : Value) : unwrap (tree.layoutWithout hooks) = (unwrap tree).groupsWithout hooks := by
  fun_cases Value.layoutWithout hooks tree
  · rfl
  · rename_i h
    rw [unwrap_of_ne h, unwrap_of_ne]
    intro w hw
    cases tree with
    | map es =>
      -- the keys are the same
      obtain ⟨e, rfl, he⟩ := List.map_eq_singleton_iff.1 (Value.map.inj hw)
      exact h e.2 (by rw [← (Prod.mk.inj he).1])
    | _ => cases hw

theorem groupWithout_name (g : Group) (devices : Entries) :
    Value.groupWithout hooks (.text g.name) (.map devices) = .map (Value.childrenWithout hooks g.kind devices) := by
  cases g <;> rfl

theorem field_groupsWithout (es : Entries) (s : String) :
    Entries.field (es.map (fun e => (e.1, Value.groupWithout hooks e.1 e.2))) s =
      Value.groupWithout hooks (.text s) (Entries.field es s) := by
  induction es with
  | nil => rfl
  | cons e es ih =>
    unfold Entries.field Entries.get? at ih ⊢
    rw [List.map_cons, List.find?_cons, List.find?_cons]
    cases hs : Value.same (.text s) e.1 with
    | true =>
      rw [Value.same_text_iff.1 hs]
      rfl
    | false => exact ih

variable (hhooks : hooks ⊆ Kind.hookOptions)
include hhooks

theorem readGroup_without (es : Entries) (g : Group) :
    readGroup (es.map (fun e => (e.1, Value.groupWithout hooks e.1 e.2))) g =
      List.map (Node.mapHooks (Hooks.without hooks)) <$> readGroup es g := by
  unfold readGroup
  rw [field_groupsWithout]
  cases hv : Entries.field es g.name with
  | map devices =>
    rw [groupWithout_name, Value.childrenWithout_eq_map]
    by_cases hempty : devices = []
    · subst hempty
      simp [Value.isGiven]
    · have hread (e : Value × Value) (he : e ∈ devices) :=
        Node.read_without hhooks e.2 ⟨g.name ++ "." ++ e.1.toText, g.kind, some e.1, none⟩
      simp only [Value.isGiven, List.isEmpty_map, List.mapM_map, Function.comp_def, mapM_eq_map_mapM hread]
      simp [hempty, Node.ofList_mapHooks]
  | _ =>
    dsimp only [Value.groupWithout]
    split
    · simp
    · rfl

/-- **Reading a layout without some hooks** gives the layout with these hooks empty. -/
theorem read_without (tree : Value) : read (tree.layoutWithout hooks) = mapHooks (Hooks.without hooks) <$> read tree := by
  have hunknown (es : Entries) (known : List String) :
      Node.unknownKeys (es.map (fun e => (e.1, Value.groupWithout hooks e.1 e.2))) known = Node.unknownKeys es known := by
    rw [Node.unknownKeys_eq, Node.unknownKeys_eq, List.filterMap_map]
    rfl
  unfold read
  rw [unwrap_layoutWithout]
  cases unwrap tree with
  | map es =>
    have hgroup (g : Group) (_ : g ∈ Group.all) : (do
        let nodes ← List.map (Node.mapHooks (Hooks.without hooks)) <$> readGroup es g
        return (g, nodes) : Logged (Group × List Node)) =
          Prod.map id (List.map (Node.mapHooks (Hooks.without hooks))) <$> (do
            let nodes ← readGroup es g
            return (g, nodes)) := by
      simp
    simp only [Value.groupsWithout, hunknown, readGroup_without hhooks]
    rw [mapM_eq_map_mapM hgroup, map_bind]
    refine bind_congr fun unknown => ?_
    split
    · rfl
    · rw [bind_map_left, map_bind]
      exact bind_congr fun groups => gather_mapHooks _ groups
  | _ => rfl

end

end Layout

end Provision
