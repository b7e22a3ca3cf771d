import Provision.Files.Tree
/-!
# What a change of files changes

A path leads to one place whatever is there (`Tree.path_find`): there are no links, so two points lead up and every other
name leads down.  What is written lands there, and a directory is made only there and on the way.  `Tree.OnlyIn` says that
nothing but files of one directory changed.
-/
namespace Provision.Files

namespace Found

def path? : Found → Option Path
  | file p _ | directory p | missing p => some p
  | noWay | notDirectory | tooLong | invalid => none

end Found

namespace Tree

/-- Where a name leads from a directory. -/
def enter (p : Path) (name : String) : Path := if name = ".." then above p else p.child name

/-- **Where a path leads**, whatever is there. -/
def target (p : Path) : Path := p.names.foldl enter ⟨p.root, []⟩

theorem target_child (p : Path) {name : String} (h : name ≠ "..") : target (p.child name) = (target p).child name := by
  simp [target, Path.child, enter, h]

variable {t u v : Tree} {p q dir : Path}

theorem path_at? (t : Tree) (p : Path) : (t.at? p).path? = some p := by
  unfold at?
  split
  · rfl
  · split <;> rfl

theorem path_walk (t : Tree) : ∀ (names : List String) (found : Found) (p q : Path), found.path? = some p →
    (t.walk found names).path? = some q → q = names.foldl enter p
  | [], found, p, q, hp, hq => by
    rw [walk, hp] at hq
    exact (Option.some.inj hq).symm
  | name :: names, found, p, q, hp, hq => by
    cases found with
    | directory p' =>
      cases hp
      rw [walk] at hq
      split at hq
      · cases names <;> cases hq
      · exact path_walk t names _ _ q (path_at? t _) hq
    | _ => cases hq

theorem path_find (h : (t.find p).path? = some q) : q = target p := by
  unfold find at h
  split at h
  · cases h
  · split at h
    · cases h
    · exact path_walk t p.names _ _ q rfl h

/-! ## Single changes -/

/-- **What is written lands where the path leads.** -/
theorem write_eq_some {content : String} (h : t.write p content = some u) : ∃ f, u = t.put (target p) f := by
  unfold write at h
  split at h
  · rename_i q f hfind
    exact ⟨_, by rw [← path_find (q := q) (by rw [hfind]; rfl), ← Option.some.inj h]⟩
  · rename_i q hfind
    exact ⟨_, by rw [← path_find (q := q) (by rw [hfind]; rfl), ← Option.some.inj h]⟩
  · cases h

theorem makeExecutable_eq (t : Tree) (p : Path) : t.makeExecutable p = t ∨ ∃ f, t.makeExecutable p = t.put (target p) f := by
  unfold makeExecutable
  split
  · rename_i q f hfind
    exact .inr ⟨_, by rw [← path_find (q := q) (by rw [hfind]; rfl)]⟩
  · exact .inl rfl

def OnWay (dir q : Path) : Prop := ∃ n, q = target ⟨dir.root, dir.names.take n⟩

theorem makeDirectories_eq_some (h : t.makeDirectories dir = some u) :
    ∃ more, u = { t with directories := t.directories ++ more } ∧ ∀ q ∈ more, OnWay dir q := by
  unfold makeDirectories at h
  generalize List.range (dir.names.length + 1) = ns at h
  induction ns generalizing t with
  | nil =>
    cases h
    exact ⟨[], by simp, fun _ hq => nomatch hq⟩
  | cons n ns ih =>
    rw [List.foldlM_cons] at h
    split at h
    · exact ih h
    · rename_i q hfind
      obtain ⟨more, rfl, hmore⟩ := ih h
      refine ⟨q :: more, by simp, List.forall_mem_cons.2 ⟨⟨n, path_find (by rw [hfind]; rfl)⟩, hmore⟩⟩
    · cases h

/-! ## Changes of one directory -/

/-- **Nothing but files of one directory changed**, by some names; directories were made on the way to it. -/
structure OnlyIn (dir : Path) (names : List String) (t u : Tree) : Prop where
  files : ∀ q, u.file? q ≠ t.file? q → ∃ name ∈ names, q = (target dir).child name
  directories : ∃ more, u.directories = t.directories ++ more ∧ ∀ q ∈ more, OnWay dir q

namespace OnlyIn

variable {names : List String}

theorem refl (dir : Path) (names : List String) (t : Tree) : OnlyIn dir names t t :=
  ⟨fun _ h => absurd rfl h, [], by simp, fun _ hq => nomatch hq⟩

theorem trans (h₁ : OnlyIn dir names t u) (h₂ : OnlyIn dir names u v) : OnlyIn dir names t v := by
  refine ⟨fun q hq => ?_, ?_⟩
  · by_cases h : u.file? q = t.file? q
    · exact h₂.files q (h ▸ hq)
    · exact h₁.files q h
  · obtain ⟨more₁, he₁, hway₁⟩ := h₁.directories
    obtain ⟨more₂, he₂, hway₂⟩ := h₂.directories
    exact ⟨more₁ ++ more₂, by rw [he₂, he₁, List.append_assoc], List.forall_mem_append.2 ⟨hway₁, hway₂⟩⟩

theorem put (t : Tree) {name : String} (hname : name ∈ names) (hdown : name ≠ "..") (f : File) :
    OnlyIn dir names t (t.put (target (dir.child name)) f) := by
  refine ⟨fun q hq => ⟨name, hname, ?_⟩, [], by simp [Tree.put], fun _ hq => nomatch hq⟩
  rw [file?_put] at hq
  rw [← target_child dir hdown]
  exact Decidable.byContradiction fun h => hq (if_neg (Ne.symm h))

theorem write {name content : String} (hname : name ∈ names) (hdown : name ≠ "..")
    (h : t.write (dir.child name) content = some u) : OnlyIn dir names t u := by
  obtain ⟨f, rfl⟩ := write_eq_some h
  exact .put t hname hdown f

theorem makeExecutable (t : Tree) {name : String} (hname : name ∈ names) (hdown : name ≠ "..") :
    OnlyIn dir names t (t.makeExecutable (dir.child name)) := by
  obtain h | ⟨f, h⟩ := makeExecutable_eq t (dir.child name)
  · rw [h]
    exact .refl dir names t
  · rw [h]
    exact .put t hname hdown f

theorem makeDirectories (names : List String) (h : t.makeDirectories dir = some u) : OnlyIn dir names t u := by
  obtain ⟨more, rfl, hway⟩ := makeDirectories_eq_some h
  exact ⟨fun q hq => absurd rfl hq, more, rfl, hway⟩

end OnlyIn

end Tree

end Provision.Files
