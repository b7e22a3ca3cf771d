import Provision.Proofs.Faults.Layouts
import Provision.Proofs.Layout.Hooks
import Provision.Proofs.Layout.Insertion
import Provision.Proofs.Layout.Placed
/-!
# The declarations of a layout

Every node of a layout is read from a declaration: a value and a place.  The declarations below a node are those that
its content, its partitions or its named collection consist of (`Declaration.below`), and reading a node reads them in
order (`Declaration.outcome_read`).  `Value.Declares` are the declarations of a whole layout: of a layout that was read
each of them was read, and every node comes from one of them (`Layout.exists_declaration`).
-/
namespace Provision

open Value (Entries)

structure Declaration where
  raw : Value
  place : Place

namespace Kind.Holding

/-- The declarations that a held value consists of.  A content slot has none where it does not take the node. -/
def declarations (path : String) : Holding → Value → List Declaration
  | .none, _ => []
  | .content slot, v =>
    match Node.contentKind slot (path ++ "." ++ "content") v with
    | .ok kind => [⟨v, ⟨path ++ "." ++ "content", kind, .none, .none⟩⟩]
    | .error _ => []
  | .partitions, v => v.itemList.zipIdx.map (fun xi =>
      ⟨xi.1, ⟨path ++ "." ++ "partitions" ++ "[" ++ toString xi.2 ++ "]", .partition, .none, some xi.2⟩⟩)
  | .named option kind, v => v.entryList.map (fun e =>
      ⟨e.2, ⟨path ++ "." ++ option ++ "." ++ e.1.toText, kind, some e.1, .none⟩⟩)

def check (path : String) : Holding → Value → Except Fault Unit
  | .none, _ => .ok ()
  | .content slot, v => (fun _ => ()) <$> Node.contentKind slot (path ++ "." ++ "content") v
  | .partitions, v => Node.requireItems (path ++ "." ++ "partitions") v
  | .named option kind, v => Node.requireEntries (path ++ "." ++ option) kind v

def collect (path : String) : Holding → List Node → Except Fault (List Node)
  | .partitions, ns => (fun _ => ns) <$> Node.checkIndices (path ++ "." ++ "partitions") [] 0 ns
  | .named .., ns => .ok (Node.ofList ns)
  | _, ns => .ok ns

theorem mem_of_mem_collect {path : String} {holding : Holding} {nodes ns : List Node}
    (h : holding.collect path nodes = .ok ns)
    {n : Node} (hn : n ∈ ns) : n ∈ nodes := by
  cases holding with
  | partitions =>
    obtain ⟨_, -, rfl⟩ := except_map_eq_ok_iff.1 h
    exact hn
  | named option kind =>
    obtain rfl := Except.ok.inj h
    exact Node.mem_of_mem_ofList hn
  | none | content slot =>
    obtain rfl := Except.ok.inj h
    exact hn

end Kind.Holding

namespace Declaration

def read (d : Declaration) : Logged Node := Node.read d.raw d.place

def held? (d : Declaration) : Option Value := d.place.kind.holding.option?.bind d.raw.given?

def below (d : Declaration) : List Declaration :=
  match d.held? with
  | some v => d.place.kind.holding.declarations d.place.path v
  | none => []

def nodesBelow (d : Declaration) : Logged (List Node) :=
  match d.held? with
  | none => pure []
  | some v => do
    d.place.kind.holding.check d.place.path v
    let nodes ← (d.place.kind.holding.declarations d.place.path v).mapM read
    d.place.kind.holding.collect d.place.path nodes

/-- What is read of a node before the nodes below it: its name, its kind, its keys, its options. -/
def opening (d : Declaration) (es : Entries) : Except Fault (DatasetType → TableFormat → Spec) := do
  Value.requireWritable d.place.key.toList
  Node.checkKind d.place.path d.place.kind.name es
  let _ ← Node.unknownKeys es ("type" :: d.place.kind.options ++ Kind.hookOptions)
  Spec.read d.place ⟨d.place.path, es⟩

theorem read_of_opening {d : Declaration} {es : Entries} {f : DatasetType → TableFormat → Spec} (h : d.opening es = .ok f) :
    Spec.read d.place ⟨d.place.path, es⟩ = .ok f := by
  obtain ⟨-, -, h⟩ := except_bind_eq_ok_iff.1 h
  obtain ⟨-, -, h⟩ := except_bind_eq_ok_iff.1 h
  obtain ⟨-, -, h⟩ := except_bind_eq_ok_iff.1 h
  exact h

theorem readHeld_eq (path : String) (es : Entries) (holding : Kind.Holding) (v : Value) :
    Node.readHeld ⟨path, es⟩ holding v = (do
      holding.check path v
      let nodes ← (holding.declarations path v).mapM read
      holding.collect path nodes) := by
  cases holding with
  | none => rfl
  | content slot =>
    simp only [Node.readHeld, Kind.Holding.check, Kind.Holding.declarations, Declared.place]
    cases Node.contentKind slot (path ++ "." ++ "content") v with
    | error f => rfl
    | ok kind =>
      simp only [List.mapM_cons, List.mapM_nil, bind_assoc, pure_bind]
      rfl
  | partitions =>
    simp only [Node.readHeld, Kind.Holding.check, Kind.Holding.declarations, Declared.place, List.mapM_map]
    refine bind_congr fun _ => bind_congr fun nodes => ?_
    simp only [Kind.Holding.collect]
    cases Node.checkIndices (path ++ "." ++ "partitions") [] 0 nodes <;> rfl
  | named option kind =>
    simp only [Node.readHeld, Kind.Holding.check, Kind.Holding.declarations, Declared.place, List.mapM_map]
    rfl

theorem readBelow_eq_nodesBelow (d : Declaration) (es : Entries) :
    Node.readBelow d.raw ⟨d.place.path, es⟩ d.place.kind.holding = d.nodesBelow := by
  rw [Node.readBelow_eq, nodesBelow, held?]
  cases d.place.kind.holding.option?.bind d.raw.given? with
  | none => rfl
  | some v => exact readHeld_eq d.place.path es d.place.kind.holding v

/-- **Reading a node**: what it says of itself, then the nodes below, then the checks that need both. -/
theorem outcome_read {d : Declaration} {es : Entries} (h : d.raw = .map es) :
    d.read.outcome = (do
      let f ← d.opening es
      let children ← d.nodesBelow.outcome
      let spec ← Spec.finish d.place ⟨d.place.path, es⟩ f
      Hooks.check es
      return ⟨d.place.name?.getD "", spec, Hooks.read es, children⟩) := by
  rw [← readBelow_eq_nodesBelow d es, read, opening]
  obtain ⟨raw, p⟩ := d
  subst h
  rw [Node.read]
  simp only [Traced.outcome_bind, Traced.outcome_liftM, Node.outcome_warnUnknown, bind_assoc, except_ok_bind]
  rfl

theorem nodesBelow_of_held? {d : Declaration} {v : Value} (h : d.held? = some v) : d.nodesBelow = (do
    d.place.kind.holding.check d.place.path v
    let nodes ← d.below.mapM read
    d.place.kind.holding.collect d.place.path nodes) := by
  rw [nodesBelow, below, h]

theorem sizeOf_lt_of_mem_below {d b : Declaration} (h : b ∈ d.below) : sizeOf b.raw < sizeOf d.raw := by
  unfold below at h
  split at h
  · rename_i v hv
    obtain ⟨option, -, hgiven⟩ := Option.bind_eq_some_iff.1 hv
    refine Nat.lt_of_le_of_lt ?_ (Value.sizeOf_lt_of_given? hgiven)
    unfold Kind.Holding.declarations at h
    split at h
    · cases h
    · split at h
      · obtain rfl := List.mem_singleton.1 h
        exact Nat.le_refl _
      · cases h
    · obtain ⟨⟨x, i⟩, hx, rfl⟩ := List.mem_map.1 h
      exact Value.sizeOf_le_of_mem_itemList (List.fst_mem_of_mem_zipIdx hx)
    · obtain ⟨e, he, rfl⟩ := List.mem_map.1 h
      exact Value.sizeOf_le_of_mem_entryList he
  · cases h

theorem outcome_nodesBelow_eq_ok {d : Declaration} {ns : List Node} (h : d.nodesBelow.outcome = .ok ns) :
    ∃ nodes, List.Forall₂ (fun b n => b.read.outcome = .ok n) d.below nodes ∧
      d.place.kind.holding.collect d.place.path nodes = .ok ns := by
  cases hv : d.held? with
  | none =>
    have hbelow : d.below = [] := by rw [below, hv]
    rw [nodesBelow, hv] at h
    obtain rfl : [] = ns := Except.ok.inj h
    exact ⟨[], hbelow ▸ .nil, by cases d.place.kind.holding <;> rfl⟩
  | some v =>
    rw [nodesBelow_of_held? hv] at h
    simp only [Traced.outcome_bind_eq_ok_iff, Traced.outcome_liftM] at h
    obtain ⟨_, -, nodes, hnodes, hcollect⟩ := h
    exact ⟨nodes, Traced.outcome_mapM_eq_ok_iff.1 hnodes, hcollect⟩

/-- **A declaration that was read**: its options, the nodes below it, one for each declaration below, and what it holds of
them. -/
theorem read_eq_ok {d : Declaration} {n : Node} (h : d.read.outcome = .ok n) :
    ∃ es f nodes, d.raw = .map es ∧ d.opening es = .ok f ∧
      List.Forall₂ (fun b m => b.read.outcome = .ok m) d.below nodes ∧
      d.place.kind.holding.collect d.place.path nodes = .ok n.children ∧
      Spec.finish d.place ⟨d.place.path, es⟩ f = .ok n.spec ∧ n.key = d.place.name?.getD "" ∧ n.hooks = Hooks.read es := by
  obtain ⟨es, -, hes, -⟩ := Node.read_eq_ok h
  rw [outcome_read hes] at h
  simp only [except_bind_eq_ok_iff, pure, Except.pure, Except.ok.injEq] at h
  obtain ⟨f, hf, children, hchildren, spec, hspec, _, -, rfl⟩ := h
  obtain ⟨nodes, hnodes, hcollect⟩ := outcome_nodesBelow_eq_ok hchildren
  exact ⟨es, f, nodes, hes, hf, hnodes, hcollect, hspec, rfl, rfl⟩

theorem exists_read_of_mem_below {d b : Declaration} {n : Node} (h : d.read.outcome = .ok n) (hb : b ∈ d.below) :
    ∃ m, b.read.outcome = .ok m := by
  obtain ⟨-, -, nodes, -, -, hnodes, -⟩ := read_eq_ok h
  obtain ⟨m, -, hm⟩ := exists_right_of_forall₂ hnodes hb
  exact ⟨m, hm⟩

theorem exists_declaration_of_mem_children {d : Declaration} {n c : Node} (h : d.read.outcome = .ok n)
    (hc : c ∈ n.children) :
    ∃ b ∈ d.below, b.read.outcome = .ok c := by
  obtain ⟨-, -, nodes, -, -, hnodes, hcollect, -⟩ := read_eq_ok h
  exact exists_left_of_forall₂ hnodes (Kind.Holding.mem_of_mem_collect hcollect hc)

end Declaration

def Group.declaration (g : Group) (e : Value × Value) : Declaration :=
  ⟨e.2, ⟨g.name ++ "." ++ e.1.toText, g.kind, some e.1, none⟩⟩

/-- **The declarations of a layout**: the entries of its groups, and all below them. -/
inductive Value.Declares (tree : Value) : Declaration → Prop
  | device {es : Entries} {g : Group} {e : Value × Value} (hes : Layout.unwrap tree = .map es)
      (he : e ∈ Layout.groupEntries es g) : Declares tree (g.declaration e)
  | held {d b : Declaration} (hd : Declares tree d) (hb : b ∈ d.below) : Declares tree b

namespace Layout

theorem exists_nodes_of_read {tree : Value} {l : Layout} (h : (read tree).outcome = .ok l) {es : Entries}
    (hes : unwrap tree = .map es) (g : Group) :
    ∃ nodes, List.Forall₂ (fun e n => (g.declaration e).read.outcome = .ok n) (groupEntries es g) nodes ∧
      groupNodes es g = Node.ofList nodes := by
  obtain ⟨es', hes', hgroups, -⟩ := devices_of_read h
  obtain rfl : es' = es := by simpa using hes'.symm.trans hes
  obtain ⟨nodes, hnodes, hlist⟩ := readGroup_eq_ofList (hgroups g g.mem_all)
  exact ⟨nodes, Traced.outcome_mapM_eq_ok_iff.1 hnodes, hlist⟩

/-- **Every declaration of a layout that was read** was read. -/
theorem exists_read_of_declares {tree : Value} {l : Layout} (h : (read tree).outcome = .ok l) {d : Declaration}
    (hd : tree.Declares d) : ∃ n, d.read.outcome = .ok n := by
  induction hd with
  | @device es g e hes he =>
    obtain ⟨nodes, hnodes, -⟩ := exists_nodes_of_read h hes g
    obtain ⟨n, -, hn⟩ := exists_right_of_forall₂ hnodes he
    exact ⟨n, hn⟩
  | held _ hb ih =>
    obtain ⟨n, hn⟩ := ih
    exact Declaration.exists_read_of_mem_below hn hb

end Layout

/-- The nodes of a tree that was read were read from its declaration and those below it. -/
theorem Declaration.exists_declaration_of_mem_subnodes {tree : Value} {d : Declaration} (hd : tree.Declares d) {n : Node}
    (h : d.read.outcome = .ok n) {m : Node} (hm : m ∈ n.subnodes) : ∃ b, tree.Declares b ∧ b.read.outcome = .ok m := by
  obtain rfl | ⟨c, hc, hm⟩ := Node.mem_subnodes_iff.1 hm
  · exact ⟨d, hd, h⟩
  · obtain ⟨b, hb, hread⟩ := exists_declaration_of_mem_children h hc
    have hlt := sizeOf_lt_of_mem_below hb
    exact exists_declaration_of_mem_subnodes (hd.held hb) hread hm
termination_by sizeOf d.raw

/-- **Every node of a layout that was read** was read from one of its declarations. -/
theorem Layout.exists_declaration {tree : Value} {l : Layout} (h : (read tree).outcome = .ok l) {n : Node}
    (hn : n ∈ l.nodes) :
    ∃ d, tree.Declares d ∧ d.read.outcome = .ok n := by
  obtain ⟨device, hdevice, hn⟩ := mem_nodes_iff.1 hn
  obtain ⟨es, hes, -, hdevices⟩ := devices_of_read h
  rw [hdevices] at hdevice
  obtain ⟨g, -, hdevice⟩ := List.mem_flatMap.1 hdevice
  obtain ⟨top, htop, rfl⟩ := List.mem_map.1 hdevice
  obtain ⟨nodes, hnodes, hlist⟩ := exists_nodes_of_read h hes g
  rw [hlist] at htop
  obtain ⟨e, he, hread⟩ := exists_left_of_forall₂ hnodes (Node.mem_of_mem_ofList htop)
  exact Declaration.exists_declaration_of_mem_subnodes (.device hes he) hread hn

end Provision
