import Mathlib.Data.List.Basic
/-!
# Patterns that lines are searched for

A pattern is read as pieces, one after the other (`Grep.readFrom`): a character stands for itself, a dot for any, a list
in brackets for those that it names, and an asterisk behind one of them for any number of such characters.  Read are
patterns that begin a line, without what stands behind a backslash other than a character that has a meaning of its own;
which characters a list names hangs on the locale and is left open.  A reader that gives as many pieces as there are
characters has taken each of them by itself (`Grep.eq_map_of_readFrom`), so a pattern that spells nothing but its own
text has none of the characters with a meaning.
-/
namespace Provision.Grep

inductive Atom where
  | char (c : Char)
  | any
  /-- A list in brackets, without these. -/
  | oneOf (list : List Char)
  deriving DecidableEq, Repr

/-- A part of a pattern: an atom, and whether it stands for any number of characters, also none. -/
structure Piece where
  atom : Atom
  repeated : Bool := false
  deriving DecidableEq, Repr

/-- Why a pattern has no pieces. -/
inductive Fault where
  | invalid
  /-- It may have a meaning that is not modelled here. -/
  | unread
  deriving DecidableEq, Repr

/-- Where the reader of a list in brackets stands. -/
inductive InList where
  /-- At its beginning, where a closing bracket is in the list. -/
  | start (negated : Bool)
  | items
  /-- Behind an opening bracket. -/
  | opened
  /-- In the name of a class or of a character, which the character `sign` opens and closes. -/
  | name (sign : Char)
  | closing (sign : Char)
  deriving DecidableEq, Repr

/-- The position in a list behind a character that does not close it. -/
def InList.next : InList → Char → InList
  | .start negated, c => if c = '^' ∧ negated = false then .start true else if c = '[' then .opened else .items
  | .items, c => if c = '[' then .opened else .items
  | .opened, c => if [':', '=', '.'].contains c then .name c else if c = '[' then .opened else .items
  | .name sign, c => if c = sign then .closing sign else .name sign
  | .closing sign, c => if c = ']' then .items else if c = sign then .closing sign else .name sign

def InList.closes : InList → Bool
  | .items | .opened => true
  | _ => false

inductive Reading where
  | text
  | escape
  | list (position : InList) (read : List Char)
  deriving DecidableEq, Repr

/-- The characters that have a meaning, and stand for themselves behind a backslash. -/
def special : List Char := ['.', '[', '\\', '*', '^', '$']

def repeatLast : List Piece → List Piece
  | [] => []
  | [p] => [⟨p.atom, true⟩]
  | p :: ps => p :: repeatLast ps

section

-- the characters that a list in brackets names, if it is one
variable (names : List Char → Option (Char → Bool))

/-- The pieces of a pattern from a position on, behind the pieces `ps`. -/
def readFrom : Reading → List Piece → List Char → Except Fault (List Piece)
  | .text, ps, [] => .ok ps
  | .escape, _, [] => .error .invalid
  | .list .., _, [] => .error .invalid
  | .text, ps, c :: s =>
    -- without anything before it an asterisk stands for itself
    if c = '*' ∧ ps ≠ [] then readFrom .text (repeatLast ps) s
    else if c = '.' then readFrom .text (ps ++ [⟨.any, false⟩]) s
    else if c = '[' then readFrom (.list (.start false) []) ps s
    else if c = '\\' then readFrom .escape ps s
    else if c = '$' ∧ s = [] then .error .unread
    else readFrom .text (ps ++ [⟨.char c, false⟩]) s
  | .escape, ps, c :: s =>
    if special.contains c then readFrom .text (ps ++ [⟨.char c, false⟩]) s else .error .unread
  | .list position read, ps, c :: s =>
    if c = ']' ∧ position.closes = true then
      if (names read).isSome then readFrom .text (ps ++ [⟨.oneOf read, false⟩]) s else .error .invalid
    else readFrom (.list (position.next c) (read ++ [c])) ps s

def read : List Char → Except Fault (List Piece)
  | '^' :: s => readFrom names .text [] s
  | _ => .error .unread

def Atom.accepts : Atom → Char → Bool
  | char c, x => x == c
  | any, _ => true
  | oneOf list, x => (names list).any (· x)

def afterOne (accepts : Char → Bool) (next : List Char → Bool) : List Char → Bool
  | [] => false
  | c :: s => accepts c && next s

/-- The same behind any number of such characters. -/
def afterSome (accepts : Char → Bool) (next : List Char → Bool) : List Char → Bool
  | [] => next []
  | c :: s => next (c :: s) || (accepts c && afterSome accepts next s)

def beginsAs : List Piece → List Char → Bool
  | [], _ => true
  | p :: ps, s => (if p.repeated then afterSome else afterOne) (p.atom.accepts names) (beginsAs ps) s

/-- **How a search ends**: with zero where a line has one of the patterns, with one where none has, with two if there is
an invalid pattern.  The lines of `pattern` are the patterns. -/
def status? (pattern : String) (lines : List String) : Option Nat :=
  match (pattern.toList.splitOn '\n').mapM (read names) with
  | .ok patterns => some (if lines.any (fun l => patterns.any (beginsAs names · l.toList)) then 0 else 1)
  | .error .invalid => some 2
  | .error .unread => none

/-- What pieces spell: a text made of one character for each of them, or of any number for a repeated one. -/
inductive Spells : List Piece → List Char → Prop
  | nil : Spells [] []
  | one {p : Piece} {ps : List Piece} {c : Char} {s : List Char} (hp : p.repeated = false)
    (hc : p.atom.accepts names c = true) (hs : Spells ps s) : Spells (p :: ps) (c :: s)
  | stop {p : Piece} {ps : List Piece} {s : List Char} (hp : p.repeated = true) (hs : Spells ps s) : Spells (p :: ps) s
  | more {p : Piece} {ps : List Piece} {c : Char} {s : List Char} (hp : p.repeated = true)
    (hc : p.atom.accepts names c = true) (hs : Spells (p :: ps) s) : Spells (p :: ps) (c :: s)

end

variable {names : List Char → Option (Char → Bool)}

section

variable {p : Piece} {ps : List Piece} {next : List Char → Bool}

theorem afterOne_iff (hp : p.repeated = false) (hnext : ∀ s, next s = true ↔ ∃ u rest, s = u ++ rest ∧ Spells names ps u)
    (s : List Char) : afterOne (p.atom.accepts names) next s = true ↔
      ∃ u rest, s = u ++ rest ∧ Spells names (p :: ps) u := by
  constructor
  · intro h
    cases s with
    | nil => cases h
    | cons c s =>
      rw [afterOne, Bool.and_eq_true, hnext] at h
      obtain ⟨hc, u, rest, rfl, hu⟩ := h
      exact ⟨c :: u, rest, rfl, .one hp hc hu⟩
  · rintro ⟨u, rest, rfl, hu⟩
    cases hu with
    | one _ hc hu =>
      rw [List.cons_append, afterOne, Bool.and_eq_true, hnext]
      exact ⟨hc, _, rest, rfl, hu⟩
    | stop hstop => rw [hp] at hstop; cases hstop
    | more hmore => rw [hp] at hmore; cases hmore

theorem afterSome_iff (hp : p.repeated = true) (hnext : ∀ s, next s = true ↔ ∃ u rest, s = u ++ rest ∧ Spells names ps u) :
    ∀ s : List Char, afterSome (p.atom.accepts names) next s = true ↔ ∃ u rest, s = u ++ rest ∧ Spells names (p :: ps) u
  | [] => by
    rw [afterSome, hnext]
    constructor
    · rintro ⟨u, rest, hs, hu⟩
      exact ⟨u, rest, hs, .stop hp hu⟩
    · rintro ⟨u, rest, hs, hu⟩
      obtain ⟨rfl, rfl⟩ := List.append_eq_nil_iff.1 hs.symm
      cases hu with
      | stop _ hu => exact ⟨[], [], rfl, hu⟩
  | c :: s => by
    rw [afterSome, Bool.or_eq_true, Bool.and_eq_true, hnext, afterSome_iff hp hnext s]
    constructor
    · rintro (⟨u, rest, hs, hu⟩ | ⟨hc, u, rest, rfl, hu⟩)
      · exact ⟨u, rest, hs, .stop hp hu⟩
      · exact ⟨c :: u, rest, rfl, .more hp hc hu⟩
    · rintro ⟨u, rest, hs, hu⟩
      cases hu with
      | one hone => rw [hp] at hone; cases hone
      | stop _ hu => exact .inl ⟨u, rest, hs, hu⟩
      | more _ hc hu =>
        obtain ⟨rfl, hrest⟩ := List.cons.inj hs
        exact .inr ⟨hc, _, rest, hrest, hu⟩

end

/-- **A text begins as pieces say where they spell its beginning.** -/
theorem beginsAs_iff : ∀ {ps : List Piece} {s : List Char},
    beginsAs names ps s = true ↔ ∃ u rest, s = u ++ rest ∧ Spells names ps u
  | [], s => iff_of_true rfl ⟨[], s, rfl, .nil⟩
  | p :: ps, s => by
    rw [beginsAs]
    cases hp : p.repeated with
    | true => exact afterSome_iff hp (fun _ => beginsAs_iff) s
    | false => exact afterOne_iff hp (fun _ => beginsAs_iff) s

def required (ps : List Piece) : Nat := ps.countP (!·.repeated)

theorem required_append (ps qs : List Piece) : required (ps ++ qs) = required ps + required qs := List.countP_append

theorem required_repeatLast_le : ∀ ps : List Piece, required (repeatLast ps) ≤ required ps
  | [] => Nat.le_refl _
  | [p] => by simp [repeatLast, required]
  | p :: q :: ps => by
    have hle := required_repeatLast_le (q :: ps)
    rw [repeatLast]
    simp only [required, List.countP_cons] at hle ⊢
    omega
    simp

/-- **What is required is there in whatever is spelled**, and is spelled itself. -/
theorem Spells.exists_required {ps : List Piece} {s : List Char} (h : Spells names ps s) :
    ∃ w, Spells names ps w ∧ w.Sublist s ∧ w.length = required ps := by
  induction h with
  | nil => exact ⟨[], .nil, .refl _, rfl⟩
  | @one p ps c s hp hc _ ih =>
    obtain ⟨w, hw, hsub, hlength⟩ := ih
    exact ⟨c :: w, .one hp hc hw, hsub.cons_cons c, by simp [required, hp] at hlength ⊢; exact hlength⟩
  | @stop p ps s hp _ ih =>
    obtain ⟨w, hw, hsub, hlength⟩ := ih
    exact ⟨w, .stop hp hw, hsub, by simp [required, hp] at hlength ⊢; exact hlength⟩
  | more _ _ _ ih =>
    obtain ⟨w, hw, hsub, hlength⟩ := ih
    exact ⟨w, hw, hsub.cons _, hlength⟩

/-- The piece of a character that is taken by itself. -/
def Piece.ofChar (c : Char) : Piece := ⟨if c = '.' then .any else .char c, false⟩

theorem required_le_of_readFrom : ∀ {s : List Char} {r : Reading} {ps qs : List Piece}, readFrom names r ps s = .ok qs →
    required qs ≤ required ps + s.length := by
  intro s
  induction s with
  | nil =>
    intro r ps qs h
    cases r <;> rw [readFrom] at h <;> cases h
    exact Nat.le_refl _
  | cons c s ih =>
    intro r ps qs h
    have hmore {p : Piece} {ps qs : List Piece} (h : required qs ≤ required (ps ++ [p]) + s.length) :
        required qs ≤ required ps + (c :: s).length := by
      have hone : required [p] ≤ 1 := List.countP_le_length
      rw [required_append] at h
      rw [List.length_cons]
      omega
    have hsame {ps ps' qs : List Piece} (hle : required ps' ≤ required ps) (h : required qs ≤ required ps' + s.length) :
        required qs ≤ required ps + (c :: s).length := by
      rw [List.length_cons]
      omega
    cases r with
    | text =>
      rw [readFrom] at h
      split_ifs at h
      · exact hsame (required_repeatLast_le ps) (ih h)
      · exact hmore (ih h)
      · exact hsame (Nat.le_refl _) (ih h)
      · exact hsame (Nat.le_refl _) (ih h)
      · exact hmore (ih h)
    | escape =>
      rw [readFrom] at h
      split_ifs at h
      exact hmore (ih h)
    | list position read =>
      rw [readFrom] at h
      split_ifs at h
      · exact hmore (ih h)
      · exact hsame (Nat.le_refl _) (ih h)

/-- **A reader that makes one piece of every character** takes each by itself, so none has another meaning. -/
theorem eq_map_of_readFrom : ∀ {s : List Char} {ps qs : List Piece}, readFrom names .text ps s = .ok qs →
    required ps + s.length ≤ required qs →
    qs = ps ++ s.map Piece.ofChar ∧ '[' ∉ s ∧ '\\' ∉ s ∧ '*' ∉ (if ps = [] then s.tail else s) := by
  intro s
  induction s with
  | nil =>
    intro ps qs h _
    rw [readFrom] at h
    cases h
    simp
  | cons c s ih =>
    intro ps qs h hrequired
    rw [List.length_cons] at hrequired
    rw [readFrom] at h
    -- what is read further is read behind the piece of this character
    have hbyItself (hstar : ¬ (c = '*' ∧ ps ≠ [])) (hlist : c ≠ '[') (hescape : c ≠ '\\')
        (h : readFrom names .text (ps ++ [Piece.ofChar c]) s = .ok qs) :
        qs = ps ++ (c :: s).map Piece.ofChar ∧ '[' ∉ c :: s ∧ '\\' ∉ c :: s ∧
          '*' ∉ (if ps = [] then (c :: s).tail else c :: s) := by
      have hone : required [Piece.ofChar c] = 1 := rfl
      obtain ⟨rfl, hlists, hescapes, hstars⟩ := ih h (by rw [required_append]; omega)
      rw [if_neg (by simp)] at hstars
      refine ⟨by simp, by simp [hlists, Ne.symm hlist], by simp [hescapes, Ne.symm hescape], ?_⟩
      split_ifs with hnone
      · exact hstars
      · exact List.not_mem_cons_of_ne_of_not_mem (fun hc => hstar ⟨hc.symm, hnone⟩) hstars
    split_ifs at h with hstar hdot hlist hescape hend
    · have := required_le_of_readFrom h
      have := required_repeatLast_le ps
      omega
    · subst hdot
      exact hbyItself hstar (by decide) (by decide) h
    · have := required_le_of_readFrom h
      omega
    · have := required_le_of_readFrom h
      omega
    · exact hbyItself hstar hlist hescape (by rw [Piece.ofChar, if_neg hdot]; exact h)

/-- Whether all characters of a text stand for themselves in a pattern that begins with it. -/
def IsLiteral (s : List Char) : Prop := '.' ∉ s ∧ '[' ∉ s ∧ '\\' ∉ s ∧ '*' ∉ s.tail

instance (s : List Char) : Decidable (IsLiteral s) := inferInstanceAs (Decidable (_ ∧ _ ∧ _ ∧ _))

theorem readFrom_literal {c : Char} (hc : c ∉ special) : ∀ {s : List Char} {ps : List Piece},
    '.' ∉ s → '[' ∉ s → '\\' ∉ s → '*' ∉ (if ps = [] then s.tail else s) →
    readFrom names .text ps (s ++ [c]) = .ok (ps ++ (s ++ [c]).map (⟨.char ·, false⟩))
  | [], ps, _, _, _, _ => by
    simp only [special, List.mem_cons, not_or] at hc
    simp [readFrom, hc]
  | d :: s, ps, hdot, hlist, hescape, hstar => by
    simp only [List.mem_cons, not_or] at hdot hlist hescape
    have hnostar : ¬ (d = '*' ∧ ps ≠ []) := by
      rintro ⟨rfl, hne⟩
      rw [if_neg hne] at hstar
      exact hstar List.mem_cons_self
    have hstars : '*' ∉ s := by
      split_ifs at hstar
      · exact hstar
      · exact fun h => hstar (List.mem_cons_of_mem _ h)
    rw [List.cons_append, readFrom, if_neg hnostar, if_neg (Ne.symm hdot.1), if_neg (Ne.symm hlist.1),
      if_neg (Ne.symm hescape.1),
      if_neg (by simp), readFrom_literal hc hdot.2 hlist.2 hescape.2 (by rw [if_neg (by simp)]; exact hstars)]
    simp

theorem spells_literal_iff : ∀ {s u : List Char}, Spells names (s.map (⟨.char ·, false⟩)) u ↔ u = s
  | [], u => by
    constructor
    · intro h
      cases h
      rfl
    · rintro rfl
      exact .nil
  | c :: s, u => by
    constructor
    · intro h
      cases h with
      | one _ hc hs => rw [spells_literal_iff.1 hs, beq_iff_eq.1 hc]
      | stop hp => cases hp
      | more hp => cases hp
    · rintro rfl
      exact .one rfl (beq_self_eq_true c) (spells_literal_iff.2 rfl)

theorem readFrom_ne_unread {c : Char} (hc : c ∉ special) : ∀ {s : List Char} {r : Reading} {ps : List Piece}, r ≠ .escape →
    '\\' ∉ s → readFrom names r ps (s ++ [c]) ≠ .error .unread := by
  simp only [special, List.mem_cons, not_or] at hc
  intro s
  induction s with
  | nil =>
    intro r ps hr _ h
    cases r with
    | text => simp [readFrom, hc] at h
    | escape => exact hr rfl
    | list position read =>
      rw [List.nil_append, readFrom] at h
      split_ifs at h <;> simp [readFrom] at h
  | cons d s ih =>
    intro r ps hr hescape h
    rw [List.mem_cons, not_or] at hescape
    rw [List.cons_append] at h
    cases r with
    | text =>
      rw [readFrom] at h
      split_ifs at h with hstar hdot hlist hbackslash hend
      · exact ih (by simp) hescape.2 h
      · exact ih (by simp) hescape.2 h
      · exact ih (by simp) hescape.2 h
      · exact hescape.1 hbackslash.symm
      · simp at hend
      · exact ih (by simp) hescape.2 h
    | escape => exact hr rfl
    | list position read =>
      rw [readFrom] at h
      split_ifs at h
      · exact ih (by simp) hescape.2 h
      · cases h
      · exact ih (by simp) hescape.2 h

theorem exists_last_of_readFrom {c : Char} (hc : c ∉ special) (hclose : c ≠ ']') : ∀ {s : List Char} {r : Reading}
    {ps qs : List Piece}, readFrom names r ps (s ++ [c]) = .ok qs → ∃ qs', qs = qs' ++ [⟨.char c, false⟩] := by
  intro s
  induction s with
  | nil =>
    intro r ps qs h
    have hplain := hc
    simp only [special, List.mem_cons, not_or] at hplain
    cases r with
    | text =>
      simp [readFrom, hplain] at h
      exact ⟨ps, h.symm⟩
    | escape =>
      rw [List.nil_append, readFrom, if_neg (by simpa using hc)] at h
      cases h
    | list position read =>
      rw [List.nil_append, readFrom, if_neg (fun h => hclose h.1)] at h
      cases h
  | cons d s ih =>
    intro r ps qs h
    rw [List.cons_append] at h
    cases r with
    | text =>
      rw [readFrom] at h
      split_ifs at h <;> exact ih h
    | escape =>
      rw [readFrom] at h
      split_ifs at h
      exact ih h
    | list position read =>
      rw [readFrom] at h
      split_ifs at h <;> exact ih h

namespace Spells

variable {ps : List Piece} {c : Char} {u : List Char}

theorem concat (h : Spells names ps u) : Spells names (ps ++ [⟨.char c, false⟩]) (u ++ [c]) := by
  induction h with
  | nil => exact .one rfl (beq_self_eq_true c) .nil
  | one hp hc _ ih => exact .one hp hc ih
  | stop hp _ ih => exact .stop hp ih
  | more hp hc _ ih => exact .more hp hc ih

theorem exists_of_concat (h : Spells names (ps ++ [⟨.char c, false⟩]) u) : ∃ v, u = v ++ [c] ∧ Spells names ps v := by
  generalize hall : ps ++ [⟨.char c, false⟩] = all at h
  induction h generalizing ps with
  | nil => simp at hall
  | @one p rest d s hp hc hs ih =>
    cases ps with
    | nil =>
      cases hall
      cases hs
      exact ⟨[], by rw [beq_iff_eq.1 hc]; rfl, .nil⟩
    | cons q ps =>
      cases hall
      obtain ⟨v, rfl, hv⟩ := ih rfl
      exact ⟨d :: v, rfl, .one hp hc hv⟩
  | stop hp _ ih =>
    cases ps with
    | nil =>
      cases hall
      cases hp
    | cons q ps =>
      cases hall
      obtain ⟨v, rfl, hv⟩ := ih rfl
      exact ⟨v, rfl, .stop hp hv⟩
  | @more p rest d s hp hc _ ih =>
    cases ps with
    | nil =>
      cases hall
      cases hp
    | cons q ps =>
      obtain ⟨rfl, rfl⟩ := List.cons.inj hall
      obtain ⟨v, rfl, hv⟩ := ih (show (q :: ps) ++ [⟨.char c, false⟩] = _ from rfl)
      exact ⟨d :: v, rfl, .more hp hc hv⟩

end Spells

/-- A text is spelled by its characters, also with another one in the place of each dot. -/
theorem spells_map_ofChar : ∀ s : List Char, Spells names (s.map Piece.ofChar) (s.map (fun d => if d = '.' then 'x' else d))
  | [] => .nil
  | c :: s => by
    refine .one rfl ?_ (spells_map_ofChar s)
    by_cases hdot : c = '.'
    · rw [Piece.ofChar, if_pos hdot]
      rfl
    · simp [Piece.ofChar, hdot, Atom.accepts]

/-- **A text is all that its pattern spells only if it is literal**: else something shorter is spelled as well, or
something with other characters in the places of the dots. -/
theorem exists_other_of_spells {c : Char} {s : List Char} {ps : List Piece}
    (h : readFrom names .text [] (s ++ [c]) = .ok (ps ++ [⟨.char c, false⟩])) (hs : Spells names ps s)
    (hnot : ¬ IsLiteral s) : ∃ w, w ≠ s ∧ Spells names ps w ∧ ∀ d ∈ w, d ∈ s ∨ d = 'x' := by
  obtain ⟨w, hw, hsub, hlength⟩ := hs.exists_required
  by_cases hshort : w.length < s.length
  · exact ⟨w, fun h => by simp [h] at hshort, hw, fun d hd => .inl (hsub.subset hd)⟩
  · obtain ⟨hps, hlists, hescapes, hstars⟩ := eq_map_of_readFrom h (by
      rw [required_append, ← hlength, List.length_append]
      have hone : required [⟨.char c, false⟩] = 1 := rfl
      have hnone : required [] = 0 := rfl
      simp only [List.length_cons, List.length_nil]
      omega)
    rw [if_pos rfl] at hstars
    have htail : s.tail ⊆ (s ++ [c]).tail := by
      cases s with
      | nil => exact List.nil_subset _
      | cons d s => exact List.subset_append_left s [c]
    have hdot : '.' ∈ s := by
      refine not_not.1 fun hdot => hnot ⟨hdot, ?_, ?_, fun h => hstars (htail h)⟩
      · exact fun h => hlists (List.mem_append_left _ h)
      · exact fun h => hescapes (List.mem_append_left _ h)
    have hpieces : ps = s.map Piece.ofChar := by
      rw [List.nil_append, List.map_append] at hps
      exact (List.append_inj' hps rfl).1
    refine ⟨s.map (fun d => if d = '.' then 'x' else d), fun h => ?_, hpieces ▸ spells_map_ofChar _, fun d hd => ?_⟩
    · have hnodot : '.' ∉ s.map (fun d => if d = '.' then 'x' else d) := by
        intro hmem
        obtain ⟨d, -, hd⟩ := List.mem_map.1 hmem
        split_ifs at hd with hother
        · exact absurd hd (by decide)
        · exact hother hd
      rw [h] at hnodot
      exact hnodot hdot
    · obtain ⟨e, he, rfl⟩ := List.mem_map.1 hd
      split_ifs
      · exact .inr rfl
      · exact .inl he

end Provision.Grep
