import Provision.Proofs.Faults.Tokens
import Provision.Yaml.Document
/-!
# What is wrong with a YAML document

Putting a tree together fails where the tokens do not fit, or where they end too early, as the text does there.
`Assembly.Reads` says of a part that it takes no notice of what stands behind the tokens before it runs out of them, and
holds of a sequence of parts when it holds of each; so tokens behind which a fault stands are refused for what they are,
or all ends in that fault, whichever it is (`Assembly.treeOf_cases`).
-/
namespace Provision

open Fault (IsReading IsUnparsable)

namespace Yaml

def Reading.ending (s : Reading) (e : Option Fault) : Reading := { s with fault := e }

namespace Assembly

/-- How an assembly goes from some tokens on, which is the same whatever stands behind them: it is done, it is refused, or it
runs out of them. -/
inductive Course {α : Type} (x : Assembly α) (s : Reading) : Prop
  | done (a : α) (t : Reading) (h : ∀ e, x (s.ending e) = .ok (a, t.ending e))
  | refused (h : ∀ e, x (s.ending e) = .error .unparsable)
  | out (hfault : ∀ f, x (s.ending (some f)) = .error f)
      (hend : x (s.ending none) = .error .unparsable ∨ ∃ (a : α) (t : Reading), x (s.ending none) = .ok (a, t.ending none))

/-- An assembly that takes no notice of what stands behind the tokens until it runs out of them. -/
def Reads {α : Type} (x : Assembly α) : Prop := ∀ s : Reading, Course x s

namespace Reads

variable {α β : Type}

@[simp] theorem pure (a : α) : Reads (Pure.pure a) := fun s => .done a s fun _ => rfl

@[simp] theorem throw : Reads (throw .unparsable : Assembly α) := fun _ => .refused fun _ => rfl

theorem bind {x : Assembly α} {f : α → Assembly β} (hx : Reads x) (hf : ∀ a, Reads (f a)) : Reads (x >>= f) := by
  intro s
  have hbind (e : Option Fault) : (x >>= f) (s.ending e) = x (s.ending e) >>= fun r => f r.1 r.2 := rfl
  cases hx s with
  | done a t h =>
    have hnext (e : Option Fault) : (x >>= f) (s.ending e) = f a (t.ending e) := by rw [hbind, h]; rfl
    cases hf a t with
    | done b u h' => exact .done b u fun e => by rw [hnext, h']
    | refused h' => exact .refused fun e => by rw [hnext, h']
    | out hfault hend => exact .out (fun g => by rw [hnext, hfault]) (by rwa [hnext])
  | refused h => exact .refused fun e => by rw [hbind, h]; rfl
  | out hfault hend =>
    refine .out (fun g => by rw [hbind, hfault]; rfl) ?_
    obtain h | ⟨a, t, h⟩ := hend
    · exact .inl (by rw [hbind, h]; rfl)
    · have hnext : (x >>= f) (s.ending none) = f a (t.ending none) := by rw [hbind, h]; rfl
      rw [hnext]
      cases hf a t with
      | done b u h' => exact .inr ⟨b, u, h' none⟩
      | refused h' => exact .inl (h' none)
      | out _ hend => exact hend

theorem get_bind {f : Reading → Assembly α} (hf : ∀ s, Reads (f s)) (hsame : ∀ s e, f (s.ending e) = f s) :
    Reads (get >>= f) := by
  intro s
  have hget (e : Option Fault) : (get >>= f) (s.ending e) = f s (s.ending e) := by rw [← hsame s e]; rfl
  cases hf s s with
  | done a t h => exact .done a t fun e => by rw [hget, h]
  | refused h => exact .refused fun e => by rw [hget, h]
  | out hfault hend => exact .out (fun g => by rw [hget, hfault]) (by rwa [hget])

theorem modify {g : Reading → Reading} (hg : ∀ s e, g (s.ending e) = (g s).ending e) : Reads (modify g) :=
  fun s => .done () (g s) fun e => congrArg (fun t => Except.ok ((), t)) (hg s e)

theorem liftM {x : Except Fault α} (hx : FailsIn IsUnparsable x) : Reads (liftM x) := by
  intro s
  cases x with
  | error e =>
    have he : e = .unparsable := hx e rfl
    exact .refused fun _ => congrArg Except.error he
  | ok a => exact .done a s fun _ => rfl

end Reads

theorem reads_peek : Reads peek := by
  rintro ⟨_ | ⟨t, ts⟩, fault, anchors, handles⟩
  · exact .out (fun _ => rfl) (.inr ⟨none, ⟨[], none, anchors, handles⟩, rfl⟩)
  · exact .done (some t) ⟨t :: ts, none, anchors, handles⟩ fun _ => rfl

theorem reads_drop : Reads drop := .modify fun _ _ => rfl

theorem reads_accept (t : Token) : Reads (accept t) := by
  refine .bind reads_peek fun next => ?_
  split
  · exact .bind reads_drop fun _ => .pure _
  · exact .pure _

theorem reads_anchor? : Reads anchor? := by
  refine .bind reads_peek fun next => ?_
  split
  · exact .bind reads_drop fun _ => .pure _
  · exact .pure _

theorem reads_tag? : Reads tag? := by
  refine .bind reads_peek fun next => ?_
  split
  · exact .bind reads_drop fun _ => .pure _
  · exact .pure _

theorem reads_properties : Reads properties := by
  refine .bind reads_anchor? fun name => ?_
  split
  · exact .bind reads_tag? fun _ => .pure _
  · refine .bind reads_tag? fun tag => ?_
    split
    · exact .pure _
    · exact .bind reads_anchor? fun _ => .pure _

theorem reads_address (tag : Option (Option String × String)) : Reads (tag.mapM address) := by
  cases tag with
  | none => exact .pure _
  | some tag =>
    refine .bind ?_ fun _ => .pure _
    unfold address
    split
    · exact .pure _
    · refine .get_bind (fun s => ?_) fun _ _ => rfl
      split
      · exact .pure _
      · exact .throw

theorem reads_declare (name : Option String) : Reads (declare name) := by
  cases name with
  | none => exact .pure _
  | some n =>
    intro s
    have hdeclare (e : Option Fault) : declare (some n) (s.ending e) =
        if (s.anchors.lookup n).isSome then .error .unparsable
        else .ok ((), Reading.ending { s with anchors := (n, none) :: s.anchors } e) := by
      unfold declare
      dsimp only
      change (if (s.anchors.lookup n).isSome then _ else _ : Assembly Unit) _ = _
      split <;> rfl
    split at hdeclare
    · exact .refused hdeclare
    · exact .done () _ hdeclare

theorem reads_complete (name : Option String) (t : Tree) : Reads (complete name t) := by
  unfold complete
  split
  · exact .pure _
  · exact .bind (.modify fun _ _ => rfl) fun _ => .pure _

theorem reads_repeated (name : String) : Reads (repeated name) := by
  refine .get_bind (fun s => ?_) fun _ _ => rfl
  split
  · exact .pure _
  · exact .pure _
  · exact .throw


theorem reads_orEmpty {next : Option Token} {ends : List Token} {read : Assembly Tree} (h : Reads read) :
    Reads (orEmpty next ends read) := by
  unfold orEmpty
  split
  · split
    · exact .pure _
    · exact h
  · exact h

theorem reads_next {read : Assembly Tree} {ends : List Token} {α : Type} {f : Tree → Assembly α} (hread : Reads read)
    (hf : ∀ t, Reads (f t)) : Reads (do f (← orEmpty (← peek) ends read)) :=
  .bind reads_peek fun _ => .bind (reads_orEmpty hread) hf

theorem reads_value {read : Assembly Tree} {ends : List Token} {α : Type} {f : Tree → Assembly α} (hread : Reads read)
    (hf : ∀ t, Reads (f t)) :
    Reads (do f (← if ← accept .value then orEmpty (← peek) ends read else pure .empty)) := by
  refine .bind (reads_accept _) fun given => ?_
  split
  · exact reads_next hread hf
  · exact hf _

theorem reads_separated {first : Bool} {α : Type} {x : Assembly α} (h : Reads x) :
    Reads (do
      if !first then
        if !(← accept .flowEntry) then throw .unparsable
      x) := by
  dsimp only
  split
  · refine .bind (reads_accept _) fun comma => ?_
    split
    · exact .bind .throw fun _ => h
    · exact h
  · exact h

mutual

theorem reads_node : ∀ (fuel : Nat) (inBlock atKey : Bool), Reads (node fuel inBlock atKey)
  | 0, _, _ => by rw [node]; exact .throw
  | fuel + 1, inBlock, atKey => by
    have hscalar (name : Option String) (t : Tree) : Reads (do declare name; complete name t) :=
      .bind (reads_declare _) fun _ => reads_complete _ _
    have hcollection (name : Option String) {read : Assembly Tree} (h : Reads read) :
        Reads (do declare name; complete name (← read)) :=
      .bind (reads_declare _) fun _ => .bind h fun _ => reads_complete _ _
    unfold node
    refine .bind reads_peek fun next => ?_
    split
    · exact .bind reads_drop fun _ => reads_repeated _
    · refine .bind reads_properties fun (name, tag) => .bind (reads_address tag) fun tag => .bind reads_peek fun next => ?_
      split
      · exact .bind reads_drop fun _ => hscalar _ _
      · exact .bind reads_drop fun _ => hcollection _ (.bind (reads_flowItems _ _) fun _ => .pure _)
      · exact .bind reads_drop fun _ => hcollection _ (.bind (reads_flowEntries _ _) fun _ => .pure _)
      · split
        · exact hcollection _ (.bind (reads_plainItems _) fun _ => .pure _)
        · split
          · exact .bind reads_drop fun _ => hcollection _ (.bind (reads_blockItems _) fun _ => .pure _)
          · split
            · exact .bind reads_drop fun _ => hcollection _ (.bind (reads_blockEntries _) fun _ => .pure _)
            · split
              · exact hscalar _ _
              · exact .throw

theorem reads_blockItems : ∀ fuel : Nat, Reads (blockItems fuel)
  | 0 => by rw [blockItems]; exact .throw
  | fuel + 1 => by
    unfold blockItems
    refine .bind (reads_accept _) fun entry => ?_
    split
    · exact .bind reads_peek fun _ => .bind (reads_orEmpty (reads_node _ _ _)) fun _ =>
        .bind (reads_blockItems fuel) fun _ => .pure _
    · refine .bind (reads_accept _) fun passed => ?_
      split
      · exact .pure _
      · exact .throw

theorem reads_plainItems : ∀ fuel : Nat, Reads (plainItems fuel)
  | 0 => by rw [plainItems]; exact .throw
  | fuel + 1 => by
    unfold plainItems
    refine .bind (reads_accept _) fun entry => ?_
    split
    · exact .bind reads_peek fun _ => .bind (reads_orEmpty (reads_node _ _ _)) fun _ =>
        .bind (reads_plainItems fuel) fun _ => .pure _
    · exact .pure _

theorem reads_blockEntries : ∀ fuel : Nat, Reads (blockEntries fuel)
  | 0 => by rw [blockEntries]; exact .throw
  | fuel + 1 => by
    unfold blockEntries
    refine .bind (reads_accept _) fun key => ?_
    split
    · refine reads_next (reads_node _ _ _) fun _ => reads_value (reads_node _ _ _) fun _ => ?_
      exact .bind (reads_blockEntries fuel) fun _ => .pure _
    · refine .bind (reads_accept _) fun passed => ?_
      split
      · exact .pure _
      · exact .throw

theorem reads_flowItems : ∀ (fuel : Nat) (first : Bool), Reads (flowItems fuel first)
  | 0, _ => by rw [flowItems]; exact .throw
  | fuel + 1, first => by
    unfold flowItems
    refine .bind (reads_accept _) fun passed => ?_
    split
    · exact .pure _
    · refine reads_separated (.bind (reads_accept _) fun key => ?_)
      split
      · refine reads_next (reads_node _ _ _) fun _ => reads_value (reads_node _ _ _) fun _ => ?_
        exact .bind (reads_flowItems fuel _) fun _ => .pure _
      · refine .bind (reads_accept _) fun passed => ?_
        split
        · exact .pure _
        · exact .bind (reads_node _ _ _) fun _ => .bind (reads_flowItems fuel _) fun _ => .pure _

theorem reads_flowEntries : ∀ (fuel : Nat) (first : Bool), Reads (flowEntries fuel first)
  | 0, _ => by rw [flowEntries]; exact .throw
  | fuel + 1, first => by
    unfold flowEntries
    refine .bind (reads_accept _) fun passed => ?_
    split
    · exact .pure _
    · refine reads_separated (.bind (reads_accept _) fun key => ?_)
      split
      · refine reads_next (reads_node _ _ _) fun _ => reads_value (reads_node _ _ _) fun _ => ?_
        exact .bind (reads_flowEntries fuel _) fun _ => .pure _
      · refine .bind (reads_accept _) fun passed => ?_
        split
        · exact .pure _
        · exact .bind (reads_node _ _ _) fun _ => .bind (reads_flowEntries fuel _) fun _ => .pure _

end

theorem failsIn_directives (tokens : List Token) (versioned : Bool) (handles : List (String × String)) :
    FailsIn IsUnparsable (directives tokens versioned handles) := by
  fun_induction directives tokens versioned handles <;> simp_all

def marked (directives : Except Fault (List Token × List (String × String))) (fuel : Nat) : Assembly (Option Tree) := do
  let (tokens, handles) ← directives
  modify (fun s => { s with tokens := tokens, handles := handles })
  if !(← accept .documentStart) then throw .unparsable
  match ← peek with
  | none | some (.directive _) | some .documentStart | some .documentEnd => return some .empty
  | _ => return some (← node fuel true false)

def bare (fuel : Nat) : Assembly (Option Tree) := do
  modify (fun s => { s with handles := usualHandles })
  return some (← node fuel true false)

def documentAt (tokens : List Token) (t : Token) : Assembly (Option Tree) :=
  match t with
  | .directive _ | .documentStart => marked (directives tokens false []) (3 * tokens.length + 3)
  | _ => bare (3 * tokens.length + 3)

theorem document_cons (t : Token) (ts : List Token) (e : Option Fault) (anchors : List (String × Option Tree))
    (handles : List (String × String)) :
    document ⟨t :: ts, e, anchors, handles⟩ = documentAt (t :: ts) t ⟨t :: ts, e, anchors, handles⟩ := by
  have hmarked (x : Except Fault (List Token × List (String × String))) (fuel : Nat) (s : Reading) : (do
      let (tokens, handles) ← x
      set { s with tokens := tokens, handles := handles }
      if !(← accept .documentStart) then throw .unparsable
      match ← peek with
      | none | some (.directive _) | some .documentStart | some .documentEnd => return some .empty
      | _ => return some (← node fuel true false) : Assembly (Option Tree)) s = marked x fuel s := by
    cases x <;> rfl
  cases t
  case directive => exact hmarked _ _ _
  all_goals rfl

theorem reads_marked {x : Except Fault (List Token × List (String × String))} (hx : FailsIn IsUnparsable x) (fuel : Nat) :
    Reads (marked x fuel) := by
  refine .bind (.liftM hx) fun r => .bind (.modify fun _ _ => rfl) fun _ => .bind (reads_accept _) fun started => ?_
  dsimp only
  split
  · refine .bind .throw fun _ => .bind reads_peek fun next => ?_
    split <;> first | exact .pure _ | exact .bind (reads_node _ _ _) fun _ => .pure _
  · refine .bind reads_peek fun next => ?_
    split <;> first | exact .pure _ | exact .bind (reads_node _ _ _) fun _ => .pure _

theorem reads_documentAt (tokens : List Token) (t : Token) : Reads (documentAt tokens t) := by
  unfold documentAt
  split
  · exact reads_marked (failsIn_directives _ _ _) _
  · exact reads_marked (failsIn_directives _ _ _) _
  · exact .bind (.modify fun _ _ => rfl) fun _ => .bind (reads_node _ _ _) fun _ => .pure _

/-- An assembly whose results are all of a kind. -/
def Yields {α : Type} (P : α → Prop) (x : Assembly α) : Prop := ∀ s r, x s = .ok r → P r.1

theorem Yields.pure {α : Type} {P : α → Prop} {a : α} (h : P a) : Yields P (Pure.pure a) := fun _ _ hr => by
  cases hr
  exact h

theorem Yields.bind {α β : Type} {P : β → Prop} {x : Assembly α} {f : α → Assembly β} (hf : ∀ a, Yields P (f a)) :
    Yields P (x >>= f) := by
  intro s r hr
  obtain ⟨a, ha, hfr⟩ := except_bind_eq_ok_iff.1 (show (x s >>= fun r => f r.1 r.2) = .ok r from hr)
  exact hf a.1 a.2 r hfr

theorem yields_documentAt (tokens : List Token) (t : Token) :
    Yields (fun tree => tree.isSome = true) (documentAt tokens t) := by
  have hbare (fuel : Nat) : Yields (fun tree => tree.isSome = true) (do return some (← node fuel true false)) :=
    .bind fun _ => .pure rfl
  have hmarked (x : Except Fault (List Token × List (String × String))) (fuel : Nat) :
      Yields (fun tree => tree.isSome = true) (marked x fuel) := by
    refine .bind fun r => .bind fun _ => .bind fun started => ?_
    dsimp only
    split
    · refine .bind fun _ => .bind fun next => ?_
      split <;> first | exact .pure rfl | exact hbare _
    · refine .bind fun next => ?_
      split <;> first | exact .pure rfl | exact hbare _
  unfold documentAt
  split
  · exact hmarked _ _
  · exact hmarked _ _
  · exact .bind fun _ => hbare _

def treeOf (tokens : List Token) (e : Option Fault) : Except Fault (Option Tree) := do
  let (tree, rest) ← document.run { tokens := tokens, fault := e }
  if tree.isSome then finish rest.tokens rest.fault
  return tree

/-- What follows a document is refused, or is the marks of its end up to where the tokens end. -/
theorem finish_cases (tokens : List Token) :
    (∀ e, finish tokens e = .error .unparsable) ∨
      (∀ f, finish tokens (some f) = .error f) ∧ FailsIn IsUnparsable (finish tokens none) := by
  have hmarks (rest : List Token) (e : Option Fault) : finish (.documentEnd :: rest) e = finish rest e := by simp [finish]
  induction tokens with
  | nil => exact .inr ⟨fun _ => rfl, .ok ()⟩
  | cons t ts ih =>
    by_cases ht : t = .documentEnd
    · subst ht
      simpa only [hmarks] using ih
    · have hfinish (e : Option Fault) : finish (t :: ts) e = directives (t :: ts) false [] >>= fun r =>
          .error (if r.1 = [] then e.getD .unparsable else .unparsable) := by
        cases t <;> first | rfl | exact absurd rfl ht
      cases hd : directives (t :: ts) false [] with
      | error f =>
        obtain rfl : f = .unparsable := failsIn_directives _ _ _ f hd
        exact .inl fun e => by rw [hfinish, hd]; rfl
      | ok r =>
        have hthrow (e : Option Fault) : finish (t :: ts) e =
            .error (if r.1 = [] then e.getD .unparsable else .unparsable) := by
          rw [hfinish, hd]
          rfl
        by_cases hr : r.1 = []
        · refine .inr ⟨fun f => by rw [hthrow, if_pos hr]; rfl, ?_⟩
          rw [hthrow, if_pos hr]
          exact FailsIn.error_iff.2 rfl
        · exact .inl fun e => by rw [hthrow, if_neg hr]

/-- **The tree of some tokens** behind which a fault stands: they are refused for what they are, or all ends in that
fault. -/
theorem treeOf_cases (tokens : List Token) :
    (∀ f, treeOf tokens (some f) = .error .unparsable) ∨ (∀ f, treeOf tokens (some f) = .error f) := by
  cases tokens with
  | nil => exact .inr fun f => rfl
  | cons t ts =>
    have hdocument (e : Option Fault) : treeOf (t :: ts) e =
        documentAt (t :: ts) t (Reading.ending ⟨t :: ts, none, [], []⟩ e) >>= fun r =>
          if r.1.isSome then finish r.2.tokens r.2.fault >>= fun _ => .ok r.1 else .ok r.1 := by
      unfold treeOf StateT.run
      rw [document_cons]
      rfl
    cases reads_documentAt (t :: ts) t ⟨t :: ts, none, [], []⟩ with
    | done tree s h =>
      have htree := yields_documentAt _ _ _ _ (h none)
      have hfinish (f : Fault) : treeOf (t :: ts) (some f) = finish s.tokens (some f) >>= fun _ => .ok tree := by
        rw [hdocument, h]
        exact if_pos htree
      obtain h' | ⟨h', -⟩ := finish_cases s.tokens
      · exact .inl fun f => by rw [hfinish, h']; rfl
      · exact .inr fun f => by rw [hfinish, h']; rfl
    | refused h => exact .inl fun f => by rw [hdocument, h]; rfl
    | out hfault => exact .inr fun f => by rw [hdocument, hfault]; rfl

theorem failsIn_treeOf_none (tokens : List Token) : FailsIn IsUnparsable (treeOf tokens none) := by
  have hfinish (tokens : List Token) : FailsIn IsUnparsable (finish tokens none) := by
    obtain h | ⟨-, h⟩ := finish_cases tokens
    · exact h none ▸ FailsIn.error_iff.2 rfl
    · exact h
  have hdone {a : Option Tree} {s : Reading} (h : document ⟨tokens, none, [], []⟩ = .ok (a, s.ending none)) :
      FailsIn IsUnparsable (treeOf tokens none) := by
    unfold treeOf StateT.run
    rw [h]
    change FailsIn _ (if a.isSome then finish s.tokens none >>= fun _ => .ok a else .ok a)
    split
    · exact (hfinish _).bind fun _ => .ok a
    · exact .ok a
  have hrefused (h : document ⟨tokens, none, [], []⟩ = .error .unparsable) : FailsIn IsUnparsable (treeOf tokens none) := by
    unfold treeOf StateT.run
    rw [h]
    exact FailsIn.error_iff.2 rfl
  cases tokens with
  | nil => exact .ok none
  | cons t ts =>
    have hdocument (e : Option Fault) := document_cons t ts e [] []
    cases reads_documentAt (t :: ts) t ⟨t :: ts, none, [], []⟩ with
    | done a s h => exact hdone ((hdocument none).trans (h none))
    | refused h => exact hrefused ((hdocument none).trans (h none))
    | out _ hend =>
      obtain h | ⟨a, s, h⟩ := hend
      · exact hrefused ((hdocument none).trans h)
      · exact hdone ((hdocument none).trans h)

/-- **Tokens that a document runs out of**: behind them all ends in whatever fault stands there. -/
def RunsOut (tokens : List Token) : Prop := ∀ f, treeOf tokens (some f) = .error f

end Assembly

namespace Tree

open Assembly

theorem ofText_eq (s : List Char) : ofText s = treeOf (Tokens.ofText s).list (Tokens.ofText s).fault := rfl

theorem failsIn_ofText (s : List Char) : FailsIn IsReading (ofText s) := by
  rw [ofText_eq]
  cases hfault : (Tokens.ofText s).fault with
  | none => exact (failsIn_treeOf_none _).mono fun f hf => .inl hf
  | some f =>
    have hf : IsReading f := Tokens.isReading_of_ofText s f hfault
    obtain h | h := treeOf_cases (Tokens.ofText s).list
    · simp [h f]
    · rw [h f]
      exact FailsIn.error_iff.2 hf

/-- **What stands behind the tokens of a text** comes to light where its document runs out of them. -/
theorem ofText_eq_error_iff {s : List Char} {f : Fault} (hf : f ≠ .unparsable) :
    ofText s = .error f ↔ (Tokens.ofText s).fault = some f ∧ RunsOut (Tokens.ofText s).list := by
  rw [ofText_eq]
  constructor
  · intro h
    cases hfault : (Tokens.ofText s).fault with
    | none => exact absurd (failsIn_treeOf_none _ f (hfault ▸ h)) hf
    | some g =>
      rw [hfault] at h
      obtain h' | h' := treeOf_cases (Tokens.ofText s).list
      · rw [h' g] at h
        exact absurd (Except.error.inj h).symm hf
      · rw [h' g] at h
        exact ⟨congrArg some (Except.error.inj h), h'⟩
  · rintro ⟨hfault, hout⟩
    rw [hfault]
    exact hout f

end Tree

end Yaml

end Provision
