import Provision.Proofs.Faults.Scalars
/-!
# What is wrong with a YAML tree

A tree may have several faults, and the one nearest to its root is reported, of those at one depth the first.  `Tree.faults`
lists the faults of a tree in the order of its text, each with its depth; the value of a tree is one of them that is nearest
(`Tree.value_eq_error_iff`), or there are none.
-/
namespace Provision

namespace Yaml

abbrev DeepFault := Nat × Fault

def higher (d e : DeepFault) : DeepFault := if e.1 < d.1 then e else d

theorem higher_assoc (a b c : DeepFault) : higher (higher a b) c = higher a (higher b c) := by
  grind [higher]

/-- Of the faults of a tree in the order of its text the one that lies highest, and of those at one depth the first. -/
def nearest : List DeepFault → Option DeepFault
  | [] => none
  | d :: ds => some (match nearest ds with
    | none => d
    | some e => higher d e)

theorem nearest_eq_none_iff {ds : List DeepFault} : nearest ds = none ↔ ds = [] := by
  cases ds <;> simp [nearest]

theorem nearest_cons_of_none {d : DeepFault} {ds : List DeepFault} (h : nearest ds = none) : nearest (d :: ds) = some d := by
  simp only [nearest, h]

theorem nearest_cons_of_some {d e : DeepFault} {ds : List DeepFault} (h : nearest ds = some e) :
    nearest (d :: ds) = some (if e.1 < d.1 then e else d) := by
  simp only [nearest, h, higher]

theorem mem_of_nearest {ds : List DeepFault} {e : DeepFault} (h : nearest ds = some e) : e ∈ ds := by
  induction ds generalizing e with
  | nil => cases h
  | cons d ds ih =>
    cases hn : nearest ds with
    | none =>
      rw [nearest_cons_of_none hn, Option.some.injEq] at h
      exact h ▸ List.mem_cons_self
    | some n =>
      rw [nearest_cons_of_some hn, Option.some.injEq] at h
      split at h
      · exact h ▸ List.mem_cons_of_mem d (ih hn)
      · exact h ▸ List.mem_cons_self

theorem nearest_append (ds es : List DeepFault) : nearest (ds ++ es) = match nearest ds, nearest es with
    | none, e => e
    | some d, none => some d
    | some d, some e => some (higher d e) := by
  induction ds with
  | nil => rfl
  | cons d ds ih =>
    rw [List.cons_append, nearest, ih, nearest]
    cases nearest ds <;> cases nearest es <;> simp only [higher_assoc]

/-- The fault that is reported: all before it lie deeper, and none behind it lies higher. -/
theorem nearest_eq_some_iff {ds : List DeepFault} {e : DeepFault} : nearest ds = some e ↔
    ∃ before after, ds = before ++ e :: after ∧ (∀ d ∈ before, e.1 < d.1) ∧ ∀ d ∈ after, e.1 ≤ d.1 := by
  constructor
  · intro h
    induction ds generalizing e with
    | nil => cases h
    | cons d ds ih =>
      cases hn : nearest ds with
      | none =>
        rw [nearest_cons_of_none hn, Option.some.injEq] at h
        rw [nearest_eq_none_iff] at hn
        exact ⟨[], [], by rw [h, hn]; rfl, by simp, by simp⟩
      | some n =>
        obtain ⟨before, after, hds, hbefore, hafter⟩ := ih hn
        rw [nearest_cons_of_some hn, Option.some.injEq] at h
        split at h
        · subst h
          refine ⟨d :: before, after, by rw [hds, List.cons_append], ?_, hafter⟩
          exact List.forall_mem_cons.2 ⟨‹_›, hbefore⟩
        · subst h
          refine ⟨[], ds, rfl, by simp, fun x hx => ?_⟩
          have hn : n.1 ≤ x.1 := by
            rw [hds, List.mem_append, List.mem_cons] at hx
            obtain hx | rfl | hx := hx
            · exact Nat.le_of_lt (hbefore x hx)
            · exact Nat.le_refl _
            · exact hafter x hx
          omega
  · rintro ⟨before, after, rfl, hbefore, hafter⟩
    have hbehind : nearest (e :: after) = some e := by
      cases hn : nearest after with
      | none => exact nearest_cons_of_none hn
      | some n =>
        rw [nearest_cons_of_some hn, if_neg (Nat.not_lt.2 (hafter n (mem_of_nearest hn)))]
    induction before with
    | nil => exact hbehind
    | cons d before ih =>
      obtain ⟨hd, hbefore⟩ := List.forall_mem_cons.1 hbefore
      rw [List.cons_append, nearest_cons_of_some (ih hbefore), if_pos hd]

def deeper (ds : List DeepFault) : List DeepFault := ds.map (fun d => (d.1 + 1, d.2))

theorem nearest_deeper (ds : List DeepFault) : nearest (deeper ds) = (nearest ds).map (fun d => (d.1 + 1, d.2)) := by
  induction ds with
  | nil => rfl
  | cons d ds ih =>
    rw [deeper, List.map_cons, nearest, ← deeper, ih, nearest]
    cases nearest ds with
    | none => rfl
    | some e =>
      simp only [Option.map_some, higher, Nat.add_lt_add_iff_right]
      split <;> rfl

namespace ByDepth

variable {α β γ : Type}

/-- A computation that reports the nearest of some faults, and gives a result where there is none. -/
def Reports (x : ByDepth α) (ds : List DeepFault) : Prop := ∀ e, x = .error e ↔ nearest ds = some e

namespace Reports

variable {x : ByDepth α} {y : ByDepth β} {ds es : List DeepFault}

theorem ok (a : α) : Reports (.ok a) [] := fun _ => iff_of_false (fun h => nomatch h) fun h => nomatch h

theorem fail (f : Fault) : Reports (ByDepth.fail f : ByDepth α) [(0, f)] := fun e => by
  simp [ByDepth.fail, nearest]

theorem nearest_eq_none (h : Reports x ds) {a : α} (hx : x = .ok a) : nearest ds = none :=
  Option.eq_none_iff_forall_ne_some.2 fun e he => nomatch hx.symm.trans ((h e).2 he)

theorem map (h : Reports x ds) (f : α → β) : Reports (x.map f) ds := by
  intro e
  rw [← h e]
  cases x <;> simp [Except.map]

theorem below (h : Reports x ds) : Reports x.below (deeper ds) := by
  intro e
  rw [nearest_deeper]
  cases x with
  | ok a =>
    rw [h.nearest_eq_none rfl]
    exact iff_of_false (fun h => nomatch h) fun h => nomatch h
  | error d =>
    rw [(h d).1 rfl]
    simp [ByDepth.below, Except.mapError]

theorem both (hx : Reports x ds) (hy : Reports y es) (f : α → β → γ) : Reports (ByDepth.both f x y) (ds ++ es) := by
  intro e
  rw [nearest_append]
  cases x with
  | ok a =>
    rw [hx.nearest_eq_none rfl, ← hy e]
    cases y <;> simp [ByDepth.both]
  | error d =>
    rw [(hx d).1 rfl]
    cases y with
    | ok b =>
      rw [hy.nearest_eq_none rfl]
      simp [ByDepth.both]
    | error d' =>
      rw [(hy d').1 rfl]
      simp [ByDepth.both, higher]

end Reports

theorem all_append (xs ys : List (ByDepth α)) : all (xs ++ ys) = both (· ++ ·) (all xs) (all ys) := by
  induction xs with
  | nil => cases h : all ys <;> simp [all, both, h]
  | cons x xs ih =>
    rw [List.cons_append, all, ih, all]
    cases x <;> cases all xs <;> cases all ys <;> first | rfl | exact congrArg Except.error (higher_assoc _ _ _).symm

theorem Reports.append {xs ys : List (ByDepth α)} {ds es : List DeepFault} (hx : Reports (all xs) ds)
    (hy : Reports (all ys) es) : Reports (all (xs ++ ys)) (ds ++ es) := by
  rw [all_append]
  exact hx.both hy _

end ByDepth

/-! ## The faults of a tree -/

def scalarFaults (tag : Tag) (text : String) : List DeepFault :=
  match Scalar.value tag text with
  | .ok _ => []
  | .error f => [(0, f)]

namespace Tree

def defaultFaults (tag : Tag) (text : Option String) : List DeepFault :=
  match tag, text with
  | .timestamp, some _ => [(0, .misuse .wrongOperand)]
  | tag, some text => scalarFaults tag text
  | _, none => [(0, .unparsable)]

/-- What is wrong with a key: it has to be a scalar, and what lies below it does not matter. -/
def keyFaults : Tree → List DeepFault
  | scalar tag text => if tag.isCollection then [(0, .unparsable)] else scalarFaults tag text
  | mapping tag entries => if tag.isCollection then [(0, .unparsable)] else defaultFaults tag (defaultText entries)
  | sequence _ _ | around => [(0, .unparsable)]

mutual

/-- Whether a mapping takes in only mappings and lists of mappings. -/
def merges : List (Tree × Tree) → Bool
  | [] => true
  | (k, v) :: es =>
    if k.tag = .merge then
      match v with
      | mapping _ fs => merges fs && merges es
      | sequence _ ts => mergesAll ts && merges es
      | around => merges es
      | scalar _ _ => false
    else merges es

def mergesAll : List Tree → Bool
  | [] => true
  | mapping _ fs :: ts => merges fs && mergesAll ts
  | around :: ts => mergesAll ts
  | _ :: _ => false

end

mutual

/-- **The faults of a tree** in the order of its text, each with its depth. -/
def faults : Tree → List DeepFault
  | scalar tag text => if tag.isCollection then [(1, .unparsable)] else scalarFaults tag text
  | sequence tag items =>
    match tag with
    | .sequence => deeper (itemFaults items)
    | .orderedMap | .pairs => deeper (pairFaults items)
    | .map | .set => [(1, .unparsable)]
    | _ => [(0, .unparsable)]
  | mapping tag entries =>
    match tag with
    | .map | .set => deeper (if merges entries then takenFaults entries ++ ownFaults entries else [(0, .unparsable)])
    | .sequence | .orderedMap | .pairs => [(1, .unparsable)]
    | .unknown | .merge | .default => [(0, .unparsable)]
    | tag => defaultFaults tag (defaultText entries)
  | around => []

def itemFaults : List Tree → List DeepFault
  | [] => []
  | t :: ts => t.faults ++ itemFaults ts

def pairFaults : List Tree → List DeepFault
  | [] => []
  | mapping _ [(k, v)] :: ts => (k.faults ++ v.faults) ++ pairFaults ts
  | _ :: ts => (0, .unparsable) :: pairFaults ts

def takenFaults : List (Tree × Tree) → List DeepFault
  | [] => []
  | (k, v) :: es =>
    if k.tag = .merge then
      match v with
      | mapping _ fs => (takenFaults fs ++ ownFaults fs) ++ takenFaults es
      | sequence _ ts => takenAllFaults ts ++ takenFaults es
      | around | scalar _ _ => takenFaults es
    else takenFaults es

def takenAllFaults : List Tree → List DeepFault
  | [] => []
  | mapping _ fs :: ts => takenAllFaults ts ++ (takenFaults fs ++ ownFaults fs)
  | _ :: ts => takenAllFaults ts

def ownFaults : List (Tree × Tree) → List DeepFault
  | [] => []
  | (k, v) :: es =>
    if k.tag = .merge then ownFaults es
    else if k.tag = .default then
      ((match k with
        | scalar _ _ => []
        | _ => [(0, .unparsable)]) ++ v.faults) ++ ownFaults es
    else (keyFaults k ++ v.faults) ++ ownFaults es

end

open ByDepth (Reports)

theorem reports_scalar (tag : Tag) (text : String) :
    Reports (ByDepth.ofExcept (Scalar.value tag text)) (scalarFaults tag text) := by
  unfold scalarFaults
  cases Scalar.value tag text with
  | ok v => exact .ok v
  | error f => exact .fail f

theorem reports_default {tag : Tag} (htag : tag ≠ .timestamp) (text : Option String) : Reports (match text with
    | some text => ByDepth.ofExcept (Scalar.value tag text)
    | none => ByDepth.fail .unparsable) (defaultFaults tag text) := by
  cases text with
  | none => cases tag <;> exact .fail _
  | some text =>
    cases tag
    case timestamp => exact absurd rfl htag
    all_goals exact reports_scalar _ _

theorem isKey_of_scalar (tag : Tag) (text : String) : Gives (fun v => v.isKey = true) (Scalar.value tag text) := by
  have hany {α : Type} (x : Except Fault α) : Gives (fun _ => True) x := fun _ _ => trivial
  cases tag
  case bool =>
    change Gives _ (Scalar.bool text)
    unfold Scalar.bool
    dsimp only
    split
    · exact .ok rfl
    · split
      · exact .ok rfl
      · exact .error _
  case int =>
    change Gives _ (Scalar.int text)
    unfold Scalar.int
    exact .guarded (.bind (hany _) fun n _ => .pure rfl)
  case float =>
    change Gives _ (Scalar.float text)
    unfold Scalar.float
    refine .guarded ?_
    dsimp only
    split
    · exact .pure rfl
    · split
      · exact .pure rfl
      · split
        · exact .bind (hany _) fun parts _ => .bind (hany _) fun size _ => .pure rfl
        · exact .bind (hany _) fun size _ => .pure rfl
  case binary =>
    change Gives _ (Scalar.binary text)
    unfold Scalar.binary
    split
    · split
      · exact .ok rfl
      · exact .error _
    · exact .error _
  case timestamp =>
    refine .bind (hany _) fun stamp _ v hv => ?_
    have hvalue : stamp.value = .ok v := by
      cases h : stamp.value <;> simp_all [Except.mapError]
    unfold Stamp.value at hvalue
    split at hvalue
    all_goals
      obtain ⟨_, -, rfl⟩ := except_map_eq_ok_iff.1 hvalue
      rfl
  case null | text => exact .ok rfl
  all_goals exact .error _

theorem asKey_ofExcept (tag : Tag) (text : String) :
    asKey (ByDepth.ofExcept (Scalar.value tag text)) = ByDepth.ofExcept (Scalar.value tag text) := by
  cases h : Scalar.value tag text with
  | ok v => exact if_pos (isKey_of_scalar tag text v h)
  | error f => rfl

theorem asKey_collection {α : Type} (x : ByDepth α) {f : α → Value} (hf : ∀ a, (f a).isKey = false) :
    asKey (x.below.map f) = ByDepth.fail .unparsable := by
  cases x with
  | ok a => exact if_neg (by simp [hf])
  | error e => rfl

theorem reports_asKey (k : Tree) : Reports (asKey k.value) (keyFaults k) := by
  cases k with
  | scalar tag text =>
    rw [value, keyFaults]
    split
    · exact .fail _
    · rw [asKey_ofExcept]
      exact reports_scalar tag text
  | sequence tag items =>
    rw [value, keyFaults]
    cases tag <;> simp only [itemsAs]
    case sequence | orderedMap | pairs =>
      rw [asKey_collection _ fun _ => rfl]
      exact .fail _
    all_goals exact .fail _
  | mapping tag entries =>
    rw [keyFaults]
    cases tag <;> simp only [value]
    case map | set =>
      rw [asKey_collection _ fun _ => rfl]
      exact .fail _
    case timestamp => cases defaultText entries <;> exact .fail _
    case unknown | merge | default => cases defaultText entries <;> exact .fail _
    case sequence | orderedMap | pairs => exact .fail _
    all_goals
      cases defaultText entries with
      | none => exact .fail _
      | some text =>
        rw [asKey_ofExcept]
        exact reports_scalar _ _
  | around =>
    rw [value, keyFaults]
    exact .fail _

/-- The entries that a mapping takes in, where it takes in only what it can, and their faults. -/
def Merges (x : ByDepth (List (ByDepth Value × ByDepth Value))) (sound : Bool) (ds : List DeepFault) : Prop :=
  if sound then ∃ es, x = .ok es ∧ Reports (entriesOf es) ds else x = ByDepth.fail .unparsable

namespace Merges

variable {x y : ByDepth (List (ByDepth Value × ByDepth Value))} {b c : Bool} {ds es : List DeepFault}

theorem ok {es : List (ByDepth Value × ByDepth Value)} (h : Reports (entriesOf es) ds) :
    Merges (.ok es) true ds := ⟨es, rfl, h⟩

theorem fail : Merges (ByDepth.fail .unparsable) false ds := rfl

theorem reports_append {xs ys : List (ByDepth Value × ByDepth Value)} (hx : Reports (entriesOf xs) ds)
    (hy : Reports (entriesOf ys) es) : Reports (entriesOf (xs ++ ys)) (ds ++ es) := by
  rw [entriesOf, List.map_append]
  exact hx.append hy

theorem append (hx : Merges x b ds) (hy : Merges y c es) : Merges (ByDepth.both (· ++ ·) x y) (b && c) (ds ++ es) := by
  cases b <;> cases c
  case true.true =>
    obtain ⟨xs, rfl, hxs⟩ := hx
    obtain ⟨ys, rfl, hys⟩ := hy
    exact .ok (reports_append hxs hys)
  case true.false =>
    obtain ⟨xs, rfl, -⟩ := hx
    obtain rfl : y = _ := hy
    rfl
  case false.true =>
    obtain rfl : x = _ := hx
    obtain ⟨ys, rfl, -⟩ := hy
    rfl
  case false.false =>
    obtain rfl : x = _ := hx
    obtain rfl : y = _ := hy
    rfl

theorem prepend (hx : Merges x b ds) (hy : Merges y c es) :
    Merges (ByDepth.both (fun a b => b ++ a) x y) (b && c) (es ++ ds) := by
  cases b <;> cases c
  case true.true =>
    obtain ⟨xs, rfl, hxs⟩ := hx
    obtain ⟨ys, rfl, hys⟩ := hy
    exact .ok (reports_append hys hxs)
  case true.false =>
    obtain ⟨xs, rfl, -⟩ := hx
    obtain rfl : y = _ := hy
    rfl
  case false.true =>
    obtain rfl : x = _ := hx
    obtain ⟨ys, rfl, -⟩ := hy
    rfl
  case false.false =>
    obtain rfl : x = _ := hx
    obtain rfl : y = _ := hy
    rfl

theorem reports (h : Merges x b ds) : Reports (x.bind entriesOf) (if b then ds else [(0, .unparsable)]) := by
  cases b with
  | true =>
    obtain ⟨xs, rfl, h⟩ := h
    exact h
  | false =>
    obtain rfl : x = _ := h
    exact .fail _

theorem merged {es : List (Tree × Tree)} (htaken : Merges (taken es) b ds)
    (hown : Reports (entriesOf (own es)) (ownFaults es)) :
    Merges (merged es) b (ds ++ ownFaults es) := by
  rw [Tree.merged, ← Bool.and_true b]
  exact htaken.append (.ok hown)

end Merges

mutual

theorem reports_value : ∀ t : Tree, Reports t.value t.faults
  | scalar tag text => by
    rw [value, faults]
    split
    · exact Reports.below (.fail .unparsable)
    · exact reports_scalar tag text
  | sequence tag items => by
    have hitems := (reports_values items).below.map Value.list
    have hpairs := (reports_pairsOf items).below.map Value.list
    have hbelow : Reports ((ByDepth.fail .unparsable : ByDepth Value).below) [(1, .unparsable)] := .below (.fail _)
    rw [value]
    cases tag <;> simp only [faults, itemsAs]
    case sequence => exact hitems
    case orderedMap | pairs => exact hpairs
    case map | set => exact hbelow
    all_goals exact .fail _
  | mapping tag entries => by
    have hentries := ((merges_taken entries).merged (reports_own entries)).reports
    have hbelow : Reports ((ByDepth.fail .unparsable : ByDepth Value).below) [(1, .unparsable)] := .below (.fail _)
    cases tag <;> simp only [value, faults]
    case map | set => exact hentries.below.map _
    case sequence | orderedMap | pairs => exact hbelow
    case unknown | merge | default => exact .fail _
    case timestamp => cases defaultText entries <;> exact .fail _
    all_goals exact reports_default (by decide) _
  | around => by
    rw [value, faults]
    exact .ok _
termination_by structural t => t

theorem reports_values : ∀ ts : List Tree, Reports (ByDepth.all (values ts)) (itemFaults ts)
  | [] => by
    rw [values, itemFaults]
    exact .ok []
  | t :: ts => by
    rw [values, itemFaults]
    exact (reports_value t).both (reports_values ts) _
termination_by structural ts => ts

theorem reports_pairsOf : ∀ ts : List Tree, Reports (ByDepth.all (pairsOf ts)) (pairFaults ts)
  | [] => by
    rw [pairsOf, pairFaults]
    exact .ok []
  | mapping _ [(k, v)] :: ts => by
    rw [pairsOf, pairFaults]
    exact ((reports_value k).both (reports_value v) _).both (reports_pairsOf ts) _
  | mapping _ [] :: ts | mapping _ (_ :: _ :: _) :: ts | scalar _ _ :: ts | sequence _ _ :: ts | around :: ts => by
    rw [pairsOf, pairFaults]
    · exact (Reports.fail _).both (reports_pairsOf ts) _
    all_goals simp
termination_by structural ts => ts

theorem merges_taken : ∀ es : List (Tree × Tree), Merges (taken es) (merges es) (takenFaults es)
  | [] => by
    rw [taken, merges, takenFaults]
    exact .ok (.ok [])
  | (k, v) :: es => by
    have ih := merges_taken es
    unfold taken merges takenFaults
    split
    · cases v with
      | mapping tag fs => exact ((merges_taken fs).merged (reports_own fs)).append ih
      | sequence tag ts => exact (merges_takenAll ts).append ih
      | around => exact ih
      | scalar tag text => exact .fail
    · exact ih
termination_by structural es => es

theorem merges_takenAll : ∀ ts : List Tree, Merges (takenAll ts) (mergesAll ts) (takenAllFaults ts)
  | [] => by
    rw [takenAll, mergesAll, takenAllFaults]
    exact .ok (.ok [])
  | t :: ts => by
    have ih := merges_takenAll ts
    cases t with
    | mapping tag fs =>
      rw [takenAll, mergesAll, takenAllFaults]
      exact ((merges_taken fs).merged (reports_own fs)).prepend ih
    | around =>
      rw [takenAll, mergesAll, takenAllFaults]
      · exact ih
      · simp
    | scalar tag text =>
      rw [takenAll, mergesAll]
      · exact .fail
      all_goals simp
    | sequence tag items =>
      rw [takenAll, mergesAll]
      · exact .fail
      all_goals simp
termination_by structural ts => ts

theorem reports_own : ∀ es : List (Tree × Tree), Reports (entriesOf (own es)) (ownFaults es)
  | [] => by
    rw [own, ownFaults]
    exact .ok []
  | (k, v) :: es => by
    have ih := reports_own es
    unfold own ownFaults
    split
    · exact ih
    · split
      · refine Reports.both (.both ?_ (reports_value v) Prod.mk) ih _
        cases k with
        | scalar tag text => exact .ok _
        | _ => exact .fail _
      · exact ((reports_asKey k).both (reports_value v) Prod.mk).both ih _
termination_by structural es => es

end

/-- **What is wrong with a tree**: the fault that lies highest, and of those at one depth the first. -/
theorem value_eq_error_iff {t : Tree} {e : DeepFault} : t.value = .error e ↔
    ∃ before after, t.faults = before ++ e :: after ∧ (∀ d ∈ before, e.1 < d.1) ∧ ∀ d ∈ after, e.1 ≤ d.1 := by
  rw [reports_value t e, nearest_eq_some_iff]

/-! ## What can be wrong with a tree -/

/-- **What is wrong at one place of a tree**: it is none of its language, a date is said to be in a mapping, or a scalar
denotes no value of its type. -/
inductive Cause : Fault → Prop
  | unparsable : Cause .unparsable
  | operand : Cause (.misuse .wrongOperand)
  | scalar {tag : Tag} {text : String} {f : Fault} (h : Scalar.value tag text = .error f) : Cause f

theorem Cause.isReading {f : Fault} (h : Cause f) : f.IsReading := by
  cases h with
  | unparsable => exact .inl rfl
  | operand => exact .inr ⟨_, rfl⟩
  | scalar h => exact Scalar.failsIn_value _ _ _ h

theorem Cause.ne_endless {f : Fault} (h : Cause f) : f ≠ .misuse .endless := by
  rintro rfl
  obtain _ | _ | h := h
  cases Scalar.value_eq_misuse_iff.1 h with
  | float _ h => cases h

def Caused (ds : List DeepFault) : Prop := ∀ d ∈ ds, Cause d.2

theorem Caused.nil : Caused [] := fun _ h => nomatch h

theorem Caused.single {n : Nat} {f : Fault} (h : Cause f) : Caused [(n, f)] := by
  simpa [Caused] using h

theorem Caused.append {ds es : List DeepFault} (hd : Caused ds) (he : Caused es) : Caused (ds ++ es) :=
  List.forall_mem_append.2 ⟨hd, he⟩

theorem Caused.deeper {ds : List DeepFault} (h : Caused ds) : Caused (deeper ds) := by
  intro d hd
  obtain ⟨e, he, rfl⟩ := List.mem_map.1 hd
  exact h e he

theorem caused_scalarFaults (tag : Tag) (text : String) : Caused (scalarFaults tag text) := by
  unfold scalarFaults
  split
  · exact .nil
  · rename_i h
    exact .single (.scalar h)

theorem caused_defaultFaults (tag : Tag) (text : Option String) : Caused (defaultFaults tag text) := by
  unfold defaultFaults
  split
  · exact .single .operand
  · exact caused_scalarFaults _ _
  · exact .single .unparsable

theorem caused_keyFaults (k : Tree) : Caused (keyFaults k) := by
  unfold keyFaults
  split
  · split
    · exact .single .unparsable
    · exact caused_scalarFaults _ _
  · split
    · exact .single .unparsable
    · exact caused_defaultFaults _ _
  all_goals exact .single .unparsable

mutual

theorem caused_faults : ∀ t : Tree, Caused t.faults
  | scalar tag text => by
    rw [faults]
    split
    · exact .single .unparsable
    · exact caused_scalarFaults tag text
  | sequence tag items => by
    cases tag <;> simp only [faults]
    case sequence => exact (caused_itemFaults items).deeper
    case orderedMap | pairs => exact (caused_pairFaults items).deeper
    all_goals exact .single .unparsable
  | mapping tag entries => by
    have hentries : Caused (if merges entries then takenFaults entries ++ ownFaults entries else [(0, .unparsable)]) := by
      split
      · exact (caused_takenFaults entries).append (caused_ownFaults entries)
      · exact .single .unparsable
    cases tag <;> simp only [faults]
    case map | set => exact hentries.deeper
    case sequence | orderedMap | pairs | unknown | merge | default => exact .single .unparsable
    all_goals exact caused_defaultFaults _ _
  | around => by
    rw [faults]
    exact .nil
termination_by structural t => t

theorem caused_itemFaults : ∀ ts : List Tree, Caused (itemFaults ts)
  | [] => by
    rw [itemFaults]
    exact .nil
  | t :: ts => by
    rw [itemFaults]
    exact (caused_faults t).append (caused_itemFaults ts)
termination_by structural ts => ts

theorem caused_pairFaults : ∀ ts : List Tree, Caused (pairFaults ts)
  | [] => by
    rw [pairFaults]
    exact .nil
  | mapping tag [(k, v)] :: ts => by
    rw [pairFaults]
    exact ((caused_faults k).append (caused_faults v)).append (caused_pairFaults ts)
  | mapping _ [] :: ts | mapping _ (_ :: _ :: _) :: ts | scalar _ _ :: ts | sequence _ _ :: ts | around :: ts => by
    rw [pairFaults]
    · exact (Caused.single .unparsable).append (caused_pairFaults ts)
    · simp
termination_by structural ts => ts

theorem caused_takenFaults : ∀ es : List (Tree × Tree), Caused (takenFaults es)
  | [] => by
    rw [takenFaults]
    exact .nil
  | (k, v) :: es => by
    have ih := caused_takenFaults es
    unfold takenFaults
    split
    · cases v with
      | mapping tag fs => exact ((caused_takenFaults fs).append (caused_ownFaults fs)).append ih
      | sequence tag ts => exact (caused_takenAllFaults ts).append ih
      | around | scalar => exact ih
    · exact ih
termination_by structural es => es

theorem caused_takenAllFaults : ∀ ts : List Tree, Caused (takenAllFaults ts)
  | [] => by
    rw [takenAllFaults]
    exact .nil
  | t :: ts => by
    have ih := caused_takenAllFaults ts
    cases t with
    | mapping tag fs =>
      rw [takenAllFaults]
      exact ih.append ((caused_takenFaults fs).append (caused_ownFaults fs))
    | _ =>
      rw [takenAllFaults]
      · exact ih
      all_goals simp
termination_by structural ts => ts

theorem caused_ownFaults : ∀ es : List (Tree × Tree), Caused (ownFaults es)
  | [] => by
    rw [ownFaults]
    exact .nil
  | (k, v) :: es => by
    have ih := caused_ownFaults es
    have hv := caused_faults v
    unfold ownFaults
    split
    · exact ih
    · split
      · refine (Caused.append ?_ hv).append ih
        cases k with
        | scalar tag text => exact .nil
        | _ => exact .single .unparsable
      · exact ((caused_keyFaults k).append hv).append ih
termination_by structural es => es

end

theorem cause_of_value {t : Tree} {e : DeepFault} (h : t.value = .error e) : Cause e.2 :=
  caused_faults t e (mem_of_nearest ((reports_value t e).1 h))

end Tree

end Yaml

end Provision
