import Provision.Layout.Read
import Provision.Proofs.Traced
/-!
# The kinds of a layout that was read

`Node.read` gives a node the kind that its place asks for, and every place asks for a kind that the node around it may
hold; so a tree that was read holds, everywhere, only nodes that fit (`Node.fits_of_read`).
-/
namespace Provision

namespace Value

def entry (key : String) (v : Value) : Value × Value := (.text key, v)

def node (kind : String) (options : List (Value × Value)) : Value := .map (entry "type" (.text kind) :: options)

end Value

namespace Kind

def Holding.takes : Holding → Kind → Bool
  | .none, _ => false
  | .content slot, k => slot.takes k
  | .partitions, k => k == .partition
  | .named _ kind, k => k == kind

end Kind

namespace Spec

theorem kind_of_read {p : Place} {d : Declared} {f : DatasetType → TableFormat → Spec} (h : Spec.read p d = .ok f)
    (type : DatasetType) (format : TableFormat) : (f type format).kind = p.kind := by
  unfold Spec.read at h
  split at h
  all_goals
    rename_i hk
    simp only [except_bind_eq_ok_iff, pure, Except.pure, Except.ok.injEq] at h
    -- the options that were read, and at the end what is made of them
    repeat obtain ⟨_, _, h⟩ := h
    rw [hk]
    rfl

theorem kind_of_finish {p : Place} {d : Declared} {f : DatasetType → TableFormat → Spec} {spec : Spec}
    (hf : ∀ type format, (f type format).kind = p.kind) (h : Spec.finish p d f = .ok spec) : spec.kind = p.kind := by
  unfold Spec.finish at h
  split at h
  all_goals
    simp only [except_bind_eq_ok_iff, pure, Except.pure, Except.ok.injEq] at h
    repeat obtain ⟨_, _, h⟩ := h
    exact hf _ _

end Spec

namespace Node

/-- **A tree whose kinds fit**: every node holds only nodes of the kinds that its own kind may hold. -/
inductive Fits : Node → Prop
  | mk {n : Node} (kinds : ∀ c ∈ n.children, n.spec.kind.holding.takes c.spec.kind = true)
      (below : ∀ c ∈ n.children, Fits c) : Fits n

theorem read_eq_ok {raw : Value} {p : Place} {n : Node} (h : (read raw p).outcome = .ok n) :
    ∃ es spec, raw = .map es ∧ Spec.read p ⟨p.path, es⟩ = .ok spec ∧
      (readBelow raw ⟨p.path, es⟩ p.kind.holding).outcome = .ok n.children ∧
      Spec.finish p ⟨p.path, es⟩ spec = .ok n.spec ∧ n.key = p.name?.getD "" ∧ n.hooks = Hooks.read es := by
  unfold read at h
  replace ⟨_, _, h⟩ := Traced.outcome_bind_eq_ok_iff.1 h
  split at h
  · rename_i es
    simp only [Traced.outcome_bind_eq_ok_iff, Traced.outcome_liftM, Traced.outcome_pure, Except.ok.injEq] at h
    obtain ⟨_, _, _, _, _, _, spec, hspec, children, hchildren, spec', hfinish, _, _, rfl⟩ := h
    exact ⟨es, spec, rfl, hspec, hchildren, hfinish, rfl, rfl⟩
  · simp at h

theorem mem_put {ns : List Node} {n m : Node} (h : m ∈ put ns n) : m ∈ ns ∨ m = n := by
  induction ns with
  | nil => exact Or.inr (List.mem_singleton.1 h)
  | cons x xs ih =>
    unfold put at h
    split at h
    · exact (List.mem_cons.1 h).symm.imp_left (List.mem_cons_of_mem _)
    · rcases List.mem_cons.1 h with rfl | h
      · exact Or.inl List.mem_cons_self
      · exact (ih h).imp_left (List.mem_cons_of_mem _)

theorem mem_of_mem_foldl_put {m : Node} : ∀ (ns acc : List Node), m ∈ ns.foldl put acc → m ∈ acc ∨ m ∈ ns
  | [], _, h => Or.inl h
  | n :: ns, acc, h => by
    rcases mem_of_mem_foldl_put ns (put acc n) h with h | h
    · exact (mem_put h).imp_right (fun hm => by simp [hm])
    · exact Or.inr (List.mem_cons_of_mem _ h)

theorem mem_of_mem_ofList {ns : List Node} {m : Node} (h : m ∈ ofList ns) : m ∈ ns :=
  (mem_of_mem_foldl_put ns [] h).resolve_left List.not_mem_nil

theorem takes_of_contentKind {slot : Slot} {path : String} {v : Value} {k : Kind}
    (h : contentKind slot path v = .ok k) : slot.takes k = true := by
  unfold contentKind at h
  split at h
  · split at h
    · cases h
    · split at h
      · cases h
      · split at h
        · cases h
          assumption
        · cases h
    · split at h <;> cases h
  · cases h

/-- Every node below was read from a smaller value, in a place that asks for a kind that may be held. -/
theorem read_of_mem_below {raw : Value} {d : Declared} {holding : Kind.Holding} {children : List Node}
    (h : (readBelow raw d holding).outcome = .ok children) {c : Node} (hc : c ∈ children) :
    ∃ raw' p', sizeOf raw' < sizeOf raw ∧ (read raw' p').outcome = .ok c ∧ holding.takes p'.kind = true := by
  unfold readBelow at h
  split at h
  · obtain rfl : [] = children := by simpa using h
    cases hc
  · split at h
    · obtain rfl : [] = children := by simpa using h
      cases hc
    · rename_i slot _ v hv _
      simp only [Traced.outcome_bind_eq_ok_iff, Traced.outcome_liftM, Traced.outcome_pure, Except.ok.injEq] at h
      obtain ⟨kind, hkind, n, hn, rfl⟩ := h
      obtain rfl := List.mem_singleton.1 hc
      exact ⟨v, _, hv, hn, takes_of_contentKind hkind⟩
  · split at h
    · obtain rfl : [] = children := by simpa using h
      cases hc
    · rename_i v hv _
      simp only [Traced.outcome_bind_eq_ok_iff, Traced.outcome_liftM, Traced.outcome_pure, Except.ok.injEq] at h
      obtain ⟨_, _, nodes, hnodes, _, _, rfl⟩ := h
      obtain ⟨⟨⟨x, hx⟩, i⟩, _, hread⟩ := Traced.exists_of_mem_mapM hnodes hc
      exact ⟨x, _, Nat.lt_trans hx hv, hread, rfl⟩
  · split at h
    · obtain rfl : [] = children := by simpa using h
      cases hc
    · rename_i option kind _ v hv _
      simp only [Traced.outcome_bind_eq_ok_iff, Traced.outcome_liftM, Traced.outcome_pure, Except.ok.injEq] at h
      obtain ⟨_, _, nodes, hnodes, rfl⟩ := h
      obtain ⟨⟨⟨k, x⟩, hx⟩, _, hread⟩ := Traced.exists_of_mem_mapM hnodes (mem_of_mem_ofList hc)
      exact ⟨x, _, Nat.lt_trans hx hv, hread, by simp [Kind.Holding.takes]⟩

/-- **Whatever is read fits, and is of the kind that its place asks for.** -/
theorem fits_of_read {raw : Value} {p : Place} {n : Node} (h : (read raw p).outcome = .ok n) :
    n.Fits ∧ n.spec.kind = p.kind := by
  obtain ⟨es, spec, _, hspec, hbelow, hfinish, _, _⟩ := read_eq_ok h
  have hkind : n.spec.kind = p.kind := Spec.kind_of_finish (Spec.kind_of_read hspec) hfinish
  refine ⟨.mk (fun c hc => ?_) (fun c hc => ?_), hkind⟩
  · obtain ⟨raw', p', hlt, hread, htakes⟩ := read_of_mem_below hbelow hc
    rw [hkind, (fits_of_read hread).2]
    exact htakes
  · obtain ⟨raw', p', hlt, hread, _⟩ := read_of_mem_below hbelow hc
    exact (fits_of_read hread).1
termination_by sizeOf raw

end Node

end Provision
