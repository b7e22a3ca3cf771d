import Provision.Proofs.Layout.Declarations
/-!
# Layouts that are written otherwise

The mapping of a node can be written otherwise where it stands: on its own, in a content slot, among the partitions of a
table, or under a name in a collection, at any depth (`Value.Rewritten`).  A node is read from what stands under the
names of its options and from nothing else, so a rewriting that keeps this (`Value.Harmless`) is not noticed
(`Node.read_rewritten`).
-/
namespace Provision

open Value (Entries entry)

/-- How a node gets its kind: from the place where it stands, or, in a content slot, from the type that it declares. -/
inductive Typing where
  | implied | declared

namespace Kind

def collections : List String := ["subvolumes", "lvs", "datasets"]

variable {k : Kind}

theorem holding_of_content (h : k.holding.option? = some "content") : ∃ slot, k.holding = .content slot := by
  cases k <;> first | exact ⟨_, rfl⟩ | exact absurd h (by decide)

theorem holding_of_partitions (h : k.holding.option? = some "partitions") : k.holding = .partitions := by
  cases k <;> first | rfl | exact absurd h (by decide)

theorem holding_of_collection {option : String} (hoption : option ∈ collections) (h : k.holding.option? = some option) :
    ∃ kind, k.holding = .named option kind := by
  simp only [collections, List.mem_cons, List.not_mem_nil, or_false] at hoption
  obtain rfl | rfl | rfl := hoption <;> cases k <;> first | exact ⟨_, rfl⟩ | exact absurd h (by decide)

end Kind

namespace Value

/-- **Where a node stands in the value of an option**: a value with a gap for it. -/
inductive Gap : String → Typing → (Value → Value) → Prop
  | content : Gap "content" .declared id
  | item (before after : List Value) : Gap "partitions" .implied (fun v => .list (before ++ v :: after))
  | first (y : Value) : Gap "partitions" .implied (fun v => .pair v y)
  | second (x : Value) : Gap "partitions" .implied (fun v => .pair x v)
  | child {option : String} (hoption : option ∈ Kind.collections) (k : Value) (before after : Entries) :
      Gap option .implied (fun v => .map (before ++ (k, v) :: after))

/-- **One node of a tree is written otherwise**, the node itself or one below it. -/
inductive Rewritten (R : Typing → Entries → Entries → Prop) : Typing → Value → Value → Prop
  | here {typing : Typing} {es fs : Entries} (h : R typing es fs) : Rewritten R typing (.map es) (.map fs)
  | held {typing inner : Typing} {option : String} {gap : Value → Value} {v w : Value} (hgap : Gap option inner gap)
      (h : Rewritten R inner v w) (before after : Entries) :
      Rewritten R typing (.map (before ++ entry option (gap v) :: after)) (.map (before ++ entry option (gap w) :: after))

/-- **A rewriting from which nothing else is read**: the same stands under every name, null counting as absent, the type of a
node whose kind is implied is left alone, and all keys are texts if they were. -/
structure Harmless (R : Typing → Entries → Entries → Prop) : Prop where
  field : ∀ {typing es fs}, R typing es fs → ∀ s, Entries.field fs s = Entries.field es s
  type : ∀ {es fs}, R .implied es fs → Entries.get? fs (.text "type") = Entries.get? es (.text "type")
  keys : ∀ {typing es fs}, R typing es fs → ∀ known,
    (fun _ => ()) <$> Node.unknownKeys fs known = (fun _ => ()) <$> Node.unknownKeys es known

theorem get?_replaced (option s : String) (x y : Value) (after : Entries) : ∀ before : Entries,
    (option = s ∧ Entries.get? (before ++ entry option x :: after) (.text s) = some x ∧
      Entries.get? (before ++ entry option y :: after) (.text s) = some y) ∨
    Entries.get? (before ++ entry option y :: after) (.text s) = Entries.get? (before ++ entry option x :: after) (.text s)
  | [] => by
    by_cases hk : option = s
    · exact .inl ⟨hk, by simp [Entries.get?, entry, same_text_iff, hk], by simp [Entries.get?, entry, same_text_iff, hk]⟩
    · exact .inr (by simp [Entries.get?, entry, same_text_iff, hk])
  | e :: before => by
    by_cases he : same (.text s) e.1 = true
    · exact .inr (by simp [Entries.get?, he])
    · have hskip (z : Value) : Entries.get? (e :: before ++ entry option z :: after) (.text s) =
          Entries.get? (before ++ entry option z :: after) (.text s) := by
        simp [Entries.get?, he]
      rw [hskip, hskip]
      exact get?_replaced option s x y after before

theorem get?_replaced_of_ne {option s : String} (h : option ≠ s) (x y : Value) (before after : Entries) :
    Entries.get? (before ++ entry option y :: after) (.text s) =
      Entries.get? (before ++ entry option x :: after) (.text s) :=
  (get?_replaced option s x y after before).resolve_left fun ⟨hk, _⟩ => h hk

theorem field_replaced_of_ne {option s : String} (h : option ≠ s) (x y : Value) (before after : Entries) :
    Entries.field (before ++ entry option y :: after) s = Entries.field (before ++ entry option x :: after) s := by
  rw [Entries.field, Entries.field, get?_replaced_of_ne h]

theorem given?_map (es : Entries) (path s : String) : (map es).given? s = (⟨path, es⟩ : Declared).get? s := by
  rw [given?, option?, Declared.get?, Entries.field]
  cases Entries.get? es (.text s) with
  | none => rfl
  | some v => cases v <;> rfl

theorem get?_of_field {es : Entries} {s t : String} (h : Entries.field es s = .text t) :
    Entries.get? es (.text s) = some (.text t) := by
  rw [Entries.field] at h
  cases hv : Entries.get? es (.text s) with
  | none => rw [hv] at h; cases h
  | some v => rw [hv] at h; exact congrArg some h

/-- The type is looked up as before: an implied one is left alone, a declared one stands there. -/
theorem Harmless.get?_type {R : Typing → Entries → Entries → Prop} (hR : Harmless R) {typing : Typing} {es fs : Entries}
    (h : R typing es fs) (htype : typing = .declared → ∃ s, Entries.field es "type" = .text s) :
    Entries.get? fs (.text "type") = Entries.get? es (.text "type") := by
  cases typing with
  | implied => exact hR.type h
  | declared =>
    obtain ⟨s, hs⟩ := htype rfl
    rw [get?_of_field hs, get?_of_field ((hR.field h "type").trans hs)]

namespace Gap

variable {option : String} {inner : Typing} {gap : Value → Value}

theorem holding_of_mem (h : Gap option inner gap) {k : Kind} (hk : option ∈ k.options) :
    k.holding.option? = some option := by
  cases h with
  | content | item | first | second => cases k <;> revert hk <;> decide
  | child hoption =>
    revert hk
    simp only [Kind.collections, List.mem_cons, List.not_mem_nil, or_false] at hoption
    obtain rfl | rfl | rfl := hoption <;> cases k <;> decide

theorem ne_type (h : Gap option inner gap) : option ≠ "type" := by
  cases h with
  | content | item | first | second => decide
  | child hoption => rintro rfl; revert hoption; decide

theorem notMem_hookOptions (h : Gap option inner gap) : option ∉ Kind.hookOptions := by
  cases h with
  | content | item | first | second => decide
  | child hoption =>
    simp only [Kind.collections, List.mem_cons, List.not_mem_nil, or_false] at hoption
    obtain rfl | rfl | rfl := hoption <;> decide

end Gap

namespace Rewritten

variable {R : Typing → Entries → Entries → Prop} {typing : Typing} {v w : Value}

theorem exists_entries (hR : Harmless R) (h : Rewritten R typing v w) :
    ∃ es fs, v = .map es ∧ w = .map fs ∧ Entries.field fs "type" = Entries.field es "type" := by
  cases h with
  | here h => exact ⟨_, _, rfl, rfl, hR.field h "type"⟩
  | held hgap _ before after => exact ⟨_, _, rfl, rfl, field_replaced_of_ne hgap.ne_type _ _ before after⟩

theorem isNull_gap (h : Rewritten R typing v w) {option : String} {inner : Typing} {gap : Value → Value}
    (hgap : Gap option inner gap) : (gap v).isNull = false ∧ (gap w).isNull = false := by
  cases hgap with
  | content => cases h <;> exact ⟨rfl, rfl⟩
  | _ => exact ⟨rfl, rfl⟩

end Rewritten

end Value

theorem forall₂_replaced {α : Type} {P : α → α → Prop} (hrefl : ∀ x, P x x) {x y : α} (h : P x y)
    (before after : List α) : List.Forall₂ P (before ++ x :: after) (before ++ y :: after) :=
  List.rel_append (List.forall₂_same.2 fun z _ => hrefl z) (.cons h (List.forall₂_same.2 fun z _ => hrefl z))

namespace Node

theorem contentKind_congr {es fs : Entries} (h : Entries.field fs "type" = Entries.field es "type") (slot : Slot)
    (path : String) : contentKind slot path (.map fs) = contentKind slot path (.map es) := by
  simp only [contentKind, h]

theorem type_of_contentKind {slot : Slot} {path : String} {es : Entries} {k : Kind}
    (h : contentKind slot path (.map es) = .ok k) : Entries.field es "type" = .text k.name := by
  simp only [contentKind] at h
  split at h
  · cases h
  · rename_i s htype
    split at h
    · cases h
    · rename_i k' hk
      split at h
      · cases h
        rw [htype, Kind.ofName?_eq_some_iff.1 hk]
      · cases h
  · split at h <;> cases h

theorem unknownKeys_congr {es fs : Entries} (h : fs.map Prod.fst = es.map Prod.fst) (known : List String) :
    unknownKeys fs known = unknownKeys es known := by
  have hkeys (gs : Entries) :
      gs.filterMap (fun e => unknownKey? known e.1) = (gs.map Prod.fst).filterMap (unknownKey? known) := by
    rw [List.filterMap_map]
    rfl
  rw [unknownKeys_eq, unknownKeys_eq, hkeys, hkeys, h]

end Node

theorem Hooks.read_congr {es fs : Entries} (h : ∀ s ∈ Kind.hookOptions, Entries.field fs s = Entries.field es s) :
    read fs = read es := by
  rw [read, read, h _ (by decide), h _ (by decide), h _ (by decide), h _ (by decide)]

theorem Hooks.check_congr {es fs : Entries} (h : ∀ s ∈ Kind.hookOptions, Entries.field fs s = Entries.field es s) :
    check fs = check es := by
  rw [check, check, List.map_congr_left h]

namespace Declaration

/-- Two declarations of one place end alike where all that is read from them does. -/
theorem outcome_read_congr {es fs : Entries} {p : Place}
    (hkind : Node.checkKind p.path p.kind.name fs = Node.checkKind p.path p.kind.name es)
    (hkeys : ∀ known, (fun _ => ()) <$> Node.unknownKeys fs known = (fun _ => ()) <$> Node.unknownKeys es known)
    (hget : ∀ s ∈ p.kind.options, p.kind.holding.option? ≠ some s →
      (⟨p.path, fs⟩ : Declared).get? s = (⟨p.path, es⟩ : Declared).get? s)
    (hhooks : ∀ s ∈ Kind.hookOptions, Entries.field fs s = Entries.field es s)
    (hbelow : (⟨.map fs, p⟩ : Declaration).nodesBelow.outcome = (⟨.map es, p⟩ : Declaration).nodesBelow.outcome) :
    (Node.read (.map fs) p).outcome = (Node.read (.map es) p).outcome := by
  have hopening : (⟨.map fs, p⟩ : Declaration).opening fs = (⟨.map es, p⟩ : Declaration).opening es := by
    have hlisted {α : Type} (gs : Entries) (known : List String) (x : Except Fault α) :
        (Node.unknownKeys gs known >>= fun _ => x) = ((fun _ => ()) <$> Node.unknownKeys gs known) >>= fun _ => x := by
      rw [bind_map_left]
    simp only [opening]
    rw [hkind, hlisted fs, hkeys, ← hlisted es, Spec.read_congr ⟨p.path, es⟩ ⟨p.path, fs⟩ rfl hget]
  change (⟨.map fs, p⟩ : Declaration).read.outcome = (⟨.map es, p⟩ : Declaration).read.outcome
  rw [outcome_read (d := ⟨.map fs, p⟩) rfl, outcome_read (d := ⟨.map es, p⟩) rfl, hopening, hbelow,
    Hooks.read_congr hhooks, Hooks.check_congr hhooks]
  simp only [Spec.finish_congr ⟨p.path, es⟩ ⟨p.path, fs⟩ rfl hget]

/-- What is held ends alike where its check does and all that it consists of. -/
theorem outcome_nodesBelow_congr {d d' : Declaration} (hplace : d'.place = d.place) {v w : Value} (hv : d.held? = some v)
    (hw : d'.held? = some w) (hcheck : d.place.kind.holding.check d.place.path w = d.place.kind.holding.check d.place.path v)
    (hbelow : List.Forall₂ (fun b c => c.read.outcome = b.read.outcome) (d.place.kind.holding.declarations d.place.path v)
      (d.place.kind.holding.declarations d.place.path w)) : d'.nodesBelow.outcome = d.nodesBelow.outcome := by
  rw [nodesBelow, nodesBelow, hv, hw, hplace]
  simp only [Traced.outcome_bind, Traced.outcome_liftM, hcheck, Traced.outcome_mapM_congr hbelow]

end Declaration

namespace Value.Gap

variable {option : String} {inner : Typing} {gap : Value → Value} {v w : Value} {k : Kind}

/-- **Values that differ in one node** pass one check and consist of declarations that end alike, if this node does. -/
theorem held_congr (h : Gap option inner gap) (hk : k.holding.option? = some option) (path : String)
    (hv : ∃ es fs, v = .map es ∧ w = .map fs ∧ Entries.field fs "type" = Entries.field es "type")
    (hread : ∀ p : Place, (inner = .declared → ∃ es, v = .map es ∧ Entries.field es "type" = .text p.kind.name) →
      (Node.read w p).outcome = (Node.read v p).outcome) :
    k.holding.check path (gap w) = k.holding.check path (gap v) ∧
      List.Forall₂ (fun b c : Declaration => c.read.outcome = b.read.outcome) (k.holding.declarations path (gap v))
        (k.holding.declarations path (gap w)) := by
  have himplied (p : Place) (hinner : inner = .implied) :
      (⟨w, p⟩ : Declaration).read.outcome = (⟨v, p⟩ : Declaration).read.outcome :=
    hread p fun hdeclared => by rw [hinner] at hdeclared; cases hdeclared
  cases h with
  | content =>
    obtain ⟨slot, hslot⟩ := Kind.holding_of_content hk
    obtain ⟨es, fs, rfl, rfl, htype⟩ := hv
    simp only [hslot, Kind.Holding.check, Kind.Holding.declarations, id, Node.contentKind_congr htype]
    refine ⟨trivial, ?_⟩
    cases hkind : Node.contentKind slot (path ++ "." ++ "content") (.map es) with
    | error f => exact .nil
    | ok kind => exact .cons (hread _ fun _ => ⟨es, rfl, Node.type_of_contentKind hkind⟩) .nil
  | item before after =>
    rw [Kind.holding_of_partitions hk]
    refine ⟨rfl, ?_⟩
    simp only [Kind.Holding.declarations, itemList, List.zipIdx_append, List.zipIdx_cons, List.map_append, List.map_cons]
    exact forall₂_replaced (P := fun b c : Declaration => c.read.outcome = b.read.outcome) (fun _ => rfl)
      (himplied _ rfl) _ _
  | first y =>
    rw [Kind.holding_of_partitions hk]
    exact ⟨rfl, .cons (himplied _ rfl) (.cons rfl .nil)⟩
  | second x =>
    rw [Kind.holding_of_partitions hk]
    exact ⟨rfl, .cons rfl (.cons (himplied _ rfl) .nil)⟩
  | child hoption key before after =>
    obtain ⟨kind, hkind⟩ := Kind.holding_of_collection hoption hk
    rw [hkind]
    refine ⟨rfl, ?_⟩
    simp only [Kind.Holding.declarations, entryList, List.map_append, List.map_cons]
    exact forall₂_replaced (P := fun b c : Declaration => c.read.outcome = b.read.outcome) (fun _ => rfl)
      (himplied _ rfl) _ _

end Value.Gap

namespace Declaration

variable {es fs : Entries} {p : Place}

theorem nodesBelow_congr (h : (⟨.map fs, p⟩ : Declaration).held? = (⟨.map es, p⟩ : Declaration).held?) :
    (⟨.map fs, p⟩ : Declaration).nodesBelow = (⟨.map es, p⟩ : Declaration).nodesBelow := by
  rw [nodesBelow, nodesBelow, h]

theorem held?_congr (h : ∀ s, Entries.field fs s = Entries.field es s) :
    (⟨.map fs, p⟩ : Declaration).held? = (⟨.map es, p⟩ : Declaration).held? := by
  simp only [held?]
  refine Option.bind_congr fun s _ => ?_
  rw [Value.given?_map fs p.path, Value.given?_map es p.path, Declared.get?, Declared.get?, h]

theorem held?_of_get? {option : String} {v : Value} (hoption : p.kind.holding.option? = some option)
    (hv : Entries.get? es (.text option) = some v) (hnull : v.isNull = false) :
    (⟨.map es, p⟩ : Declaration).held? = some v := by
  rw [held?, hoption, Option.bind_some, Value.given?, Value.option?, hv]
  cases v <;> first | rfl | cases hnull

end Declaration

theorem Value.Gap.outcome_nodesBelow {option : String} {inner : Typing} {gap : Value → Value} (hgap : Gap option inner gap)
    {R : Typing → Entries → Entries → Prop} (hR : Harmless R) {v w : Value} (h : Rewritten R inner v w)
    (hread : ∀ p : Place, (inner = .declared → ∃ es, v = .map es ∧ Entries.field es "type" = .text p.kind.name) →
      (Node.read w p).outcome = (Node.read v p).outcome) (before after : Entries) (p : Place) :
    (⟨.map (before ++ entry option (gap w) :: after), p⟩ : Declaration).nodesBelow.outcome =
      (⟨.map (before ++ entry option (gap v) :: after), p⟩ : Declaration).nodesBelow.outcome := by
  set es := before ++ entry option (gap v) :: after with hes
  set fs := before ++ entry option (gap w) :: after with hfs
  by_cases hheld : p.kind.holding.option? = some option ∧ Entries.get? es (.text option) = some (gap v) ∧
      Entries.get? fs (.text option) = some (gap w)
  · obtain ⟨hoption, hv, hw⟩ := hheld
    obtain ⟨hnull, hnull'⟩ := h.isNull_gap hgap
    obtain ⟨hcheck, hbelow⟩ := hgap.held_congr hoption p.path (h.exists_entries hR) hread
    exact Declaration.outcome_nodesBelow_congr rfl (Declaration.held?_of_get? hoption hv hnull)
      (Declaration.held?_of_get? hoption hw hnull') hcheck hbelow
  · -- the option is not the one in which the node holds others, or it is not the first of its name
    have hsame : (⟨.map fs, p⟩ : Declaration).held? = (⟨.map es, p⟩ : Declaration).held? := by
      simp only [Declaration.held?]
      refine Option.bind_congr fun s hs => ?_
      rw [given?, given?, option?, option?]
      obtain ⟨rfl, hv, hw⟩ | heq := get?_replaced option s (gap v) (gap w) after before
      · exact absurd ⟨hs, hv, hw⟩ hheld
      · simp only [hes, hfs, heq]
    rw [Declaration.nodesBelow_congr hsame]

/-- **A harmless rewriting is not noticed**: the node is read as before, or refused as before. -/
theorem Node.read_rewritten {R : Typing → Entries → Entries → Prop} (hR : Value.Harmless R) {typing : Typing} {v w : Value}
    (h : Value.Rewritten R typing v w) : ∀ p : Place,
      (typing = .declared → ∃ es, v = .map es ∧ Entries.field es "type" = .text p.kind.name) →
      (read w p).outcome = (read v p).outcome := by
  induction h with
  | @here typing es fs h =>
    intro p htyping
    have hfield := hR.field h
    have htype : Entries.get? fs (.text "type") = Entries.get? es (.text "type") := hR.get?_type h fun hdeclared => by
      obtain ⟨_, heq, htext⟩ := htyping hdeclared
      exact ⟨_, Value.map.inj heq ▸ htext⟩
    have hbelow := Declaration.nodesBelow_congr (Declaration.held?_congr (p := p) hfield)
    exact Declaration.outcome_read_congr (by rw [checkKind, checkKind, htype]) (hR.keys h)
      (fun s _ _ => by rw [Declared.get?, Declared.get?, hfield]) (fun s _ => hfield s) (by rw [hbelow])
  | @held typing inner option gap v w hgap h before after ih =>
    intro p _
    have hfield {s : String} (hs : option ≠ s) := Value.field_replaced_of_ne hs (gap v) (gap w) before after
    refine Declaration.outcome_read_congr ?_ (fun known => ?_) (fun s hs hheld => ?_) (fun s hs => ?_) ?_
    · rw [checkKind, checkKind, Value.get?_replaced_of_ne hgap.ne_type (gap v) (gap w)]
    · rw [unknownKeys_congr]
      simp [entry]
    · rw [Declared.get?, Declared.get?, hfield]
      rintro rfl
      exact hheld (hgap.holding_of_mem hs)
    · exact hfield fun e => hgap.notMem_hookOptions (e ▸ hs)
    · exact hgap.outcome_nodesBelow hR h ih before after p

end Provision
