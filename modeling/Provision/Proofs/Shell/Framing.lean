import Mathlib.Data.List.TakeWhile
import Provision.Plan.Action
import Provision.Proofs.Shell.Splitting
import Provision.Proofs.Text.Lines
/-!
# The words of a framed hook

The frame of a hook sets a margin before each line that is not blank.  Between two words the margin changes nothing;
inside a word it ends the word, and inside quotes it becomes a part of it (`keeps_margin`).  What is read before a line
stays the same, so the lines can be indented one after another (`keeps_indent`): a framed hook has the words of the hook
just where every line that is not blank begins between two words (`hookScript_words`).
-/
namespace Provision.Shell

namespace Position

def next : Position → Char → Position
  | .outside, c | .word, c =>
    if isSeparator c then .outside
    else if c = '\\' then .escape
    else if c = '\'' then .single
    else if c = '"' then .double
    else .word
  | .single, c => if c = '\'' then .word else .single
  | .double, c => if c = '"' then .word else if c = '\\' then .doubleEscape else .double
  | .escape, _ => .word
  | .doubleEscape, _ => .double

def after (p : Position) (s : List Char) : Position := s.foldl next p

theorem after_append (p : Position) (s t : List Char) : p.after (s ++ t) = (p.after s).after t := List.foldl_append

/-- Whether the next character is read together with the one before it. -/
def IsEscape (p : Position) : Prop := p = .escape ∨ p = .doubleEscape

theorem not_isEscape_next {p : Position} {c : Char} (h : c ≠ '\\') : ¬ (p.next c).IsEscape := by
  cases p <;> simp only [next, IsEscape, if_neg h]
  all_goals repeat' split
  all_goals simp

theorem not_isEscape_after {l : List Char} (h : ∃ c ∈ l.getLast?, Text.endsLine c = true) (p : Position) :
    ¬ (p.after l).IsEscape := by
  obtain ⟨c, hc, hends⟩ := h
  obtain ⟨l, rfl⟩ := List.getLast?_eq_some_iff.1 hc
  rw [after_append]
  refine not_isEscape_next ?_
  rintro rfl
  revert hends
  decide

end Position

/-! ## What is read before a text, and what of a word is read already -/

theorem exists_splitFrom_cons (p : Position) (w : List Char) (c : Char) :
    ∃ ws w', ∀ s, splitFrom p w (c :: s) = (ws ++ ·) <$> splitFrom (p.next c) w' s := by
  have hgoes (r : Except QuotingFault (List (List Char))) : r = ([] ++ ·) <$> r := by cases r <;> rfl
  cases p <;> simp only [splitFrom, Position.next] <;> repeat' split
  case word.isTrue => exact ⟨[w], [], fun s => rfl⟩
  all_goals exact ⟨[], _, fun s => hgoes _⟩

/-- **What is read of a text does not depend on what comes after it.** -/
theorem exists_splitFrom_append (p : Position) (w s : List Char) :
    ∃ ws w', ∀ t, splitFrom p w (s ++ t) = (ws ++ ·) <$> splitFrom (p.after s) w' t := by
  induction s generalizing p w with
  | nil =>
    refine ⟨[], w, fun t => ?_⟩
    show splitFrom p w t = ([] ++ ·) <$> splitFrom p w t
    cases splitFrom p w t <;> rfl
  | cons c s ih =>
    obtain ⟨ws, u, hc⟩ := exists_splitFrom_cons p w c
    obtain ⟨vs, v, hs⟩ := ih (p.next c) u
    refine ⟨ws ++ vs, v, fun t => ?_⟩
    rw [List.cons_append, hc, hs]
    show _ = ((ws ++ vs) ++ ·) <$> splitFrom ((p.next c).after s) v t
    cases splitFrom ((p.next c).after s) v t with
    | error e => rfl
    | ok us => exact congrArg Except.ok (List.append_assoc ws vs us).symm

theorem splitFrom_append (u : List Char) : ∀ (s : List Char) (p : Position) (w : List Char), p ≠ .outside →
    splitFrom p (u ++ w) s = Text.beforeFirst u <$> splitFrom p w s
  | [], p, w, h => by
    cases p
    case outside => exact absurd rfl h
    all_goals rfl
  | c :: s, p, w, h => by
    have ih := splitFrom_append u s
    cases p
    case outside => exact absurd rfl h
    all_goals simp only [splitFrom]
    all_goals repeat' split
    case word.isTrue => cases splitFrom .outside [] s <;> rfl
    all_goals first | exact ih _ _ (by simp) | simpa using ih _ (w ++ _) (by simp)

theorem ne_nil_of_splitFrom : ∀ {s : List Char} {p : Position} {w : List Char} {ws : List (List Char)}, p ≠ .outside →
    splitFrom p w s = .ok ws → ws ≠ []
  | [], p, w, ws, h, hws => by
    cases p
    case outside => exact absurd rfl h
    case word => cases hws; simp
    all_goals cases hws
  | c :: s, p, w, ws, h, hws => by
    cases p
    case outside => exact absurd rfl h
    all_goals simp only [splitFrom] at hws
    all_goals repeat' split at hws
    case word.isTrue =>
      cases hs : splitFrom .outside [] s with
      | error e => rw [hs] at hws; cases hws
      | ok vs => rw [hs] at hws; cases hws; simp
    all_goals exact ne_nil_of_splitFrom (by simp) hws

/-! ## Keeping the words -/

def size : List (List Char) → Nat
  | [] => 0
  | w :: ws => w.length + 1 + size ws

theorem size_append (ws vs : List (List Char)) : size (ws ++ vs) = size ws + size vs := by
  induction ws with
  | nil => exact (Nat.zero_add _).symm
  | cons w ws ih => rw [List.cons_append, size, size, ih, ← Nat.add_assoc]

theorem size_beforeFirst (u : List Char) {ws : List (List Char)} (h : ws ≠ []) :
    size (Text.beforeFirst u ws) = u.length + size ws := by
  cases ws with
  | nil => exact absurd rfl h
  | cons w ws =>
    simp only [Text.beforeFirst, size, List.length_append]
    omega

/-- **What becomes of the words of a text that is changed**: they are kept, or there are more of them or of their
characters. -/
def Keeps (kept : Prop) (r r' : Except QuotingFault (List (List Char))) : Prop :=
  ∀ ws, r = .ok ws → ∃ ws', r' = .ok ws' ∧ (kept → ws' = ws) ∧ (¬ kept → size ws < size ws')

namespace Keeps

variable {P Q : Prop} {r r' r'' : Except QuotingFault (List (List Char))}

theorem of_eq (hP : P) (h : r' = r) : Keeps P r r' := fun ws hr => ⟨ws, by rw [h, hr], fun _ => rfl, fun hn => absurd hP hn⟩

theorem congr (hPQ : P ↔ Q) (h : Keeps P r r') : Keeps Q r r' := propext hPQ ▸ h

theorem trans (h : Keeps P r r') (h' : Keeps Q r' r'') : Keeps (P ∧ Q) r r'' := by
  intro ws hr
  obtain ⟨ws', hr', heq, hlt⟩ := h ws hr
  obtain ⟨ws'', hr'', heq', hlt'⟩ := h' ws' hr'
  refine ⟨ws'', hr'', fun ⟨hP, hQ⟩ => (heq' hQ).trans (heq hP), fun hn => ?_⟩
  -- no step makes less of them
  by_cases hP : P
  · rw [← heq hP]
    exact hlt' (fun hQ => hn ⟨hP, hQ⟩)
  · by_cases hQ : Q
    · rw [heq' hQ]
      exact hlt hP
    · exact Nat.lt_trans (hlt hP) (hlt' hQ)

theorem append (out : List (List Char)) (h : Keeps P r r') : Keeps P ((out ++ ·) <$> r) ((out ++ ·) <$> r') := by
  intro ws hr
  obtain ⟨ws, rfl, rfl⟩ : ∃ vs, r = .ok vs ∧ out ++ vs = ws := by
    cases r with
    | error e => cases hr
    | ok vs => cases hr; exact ⟨vs, rfl, rfl⟩
  obtain ⟨ws', rfl, heq, hlt⟩ := h ws rfl
  refine ⟨out ++ ws', rfl, fun hP => by rw [heq hP], fun hP => ?_⟩
  rw [size_append, size_append]
  exact Nat.add_lt_add_left (hlt hP) _

end Keeps

theorem keeps_longer {p : Position} (hp : p ≠ .outside) {w v : List Char} (h : w.length < v.length) (s : List Char) :
    Keeps False (splitFrom p w s) (splitFrom p v s) := by
  have hread (u : List Char) : splitFrom p u s = Text.beforeFirst u <$> splitFrom p [] s := by
    have := splitFrom_append u s p [] hp
    rwa [List.append_nil] at this
  intro ws hws
  rw [hread w] at hws
  cases hs : splitFrom p [] s with
  | error e => rw [hs] at hws; cases hws
  | ok vs =>
    have hne := ne_nil_of_splitFrom hp hs
    obtain rfl : Text.beforeFirst w vs = ws := by rw [hs] at hws; cases hws; rfl
    refine ⟨Text.beforeFirst v vs, by rw [hread v, hs]; rfl, False.elim, fun _ => ?_⟩
    rw [size_beforeFirst _ hne, size_beforeFirst _ hne]
    exact Nat.add_lt_add_right h _

/-- Whether a text that is read from a position on begins between two words. -/
def BeginsApart (p : Position) (s : List Char) : Prop := p = .outside ∨ p = .word ∧ EndsArgument s

theorem beginsApart_append {p : Position} {s : List Char} (h : s ≠ []) (t : List Char) :
    BeginsApart p (s ++ t) ↔ BeginsApart p s := by
  obtain ⟨c, s, rfl⟩ := List.exists_cons_of_ne_nil h
  exact .rfl

/-- **A margin keeps the words just where it stands between two of them.** -/
theorem keeps_margin {p : Position} (hp : ¬ p.IsEscape) (w s : List Char) :
    Keeps (BeginsApart p s) (splitFrom p w s) (splitFrom p w (' ' :: ' ' :: s)) := by
  cases p
  case outside => exact .of_eq (.inl rfl) rfl
  case escape => exact absurd (.inl rfl) hp
  case doubleEscape => exact absurd (.inr rfl) hp
  case word =>
    have hmargin : splitFrom .word w (' ' :: ' ' :: s) = (w :: ·) <$> splitFrom .outside [] s := rfl
    by_cases hs : EndsArgument s
    · exact .of_eq (.inr ⟨rfl, hs⟩) (by rw [hmargin, splitFrom_word_of_endsArgument hs])
    · refine .congr (P := False) (by simp [BeginsApart, hs]) (fun ws hws => ?_)
      -- the word ends here, and what follows is a word of its own
      obtain ⟨c, t, rfl, hc⟩ : ∃ c t, s = c :: t ∧ isSeparator c = false := by
        cases s with
        | nil => exact absurd (fun c hc => by cases hc) hs
        | cons c t => exact ⟨c, t, rfl, by simpa [EndsArgument] using hs⟩
      have hread := splitFrom_append w (c :: t) .word [] (by simp)
      rw [List.append_nil] at hread
      rw [splitFrom_outside_cons hc] at hmargin
      rw [hmargin]
      rw [hread] at hws
      cases hvs : splitFrom .word [] (c :: t) with
      | error e => rw [hvs] at hws; cases hws
      | ok vs =>
        obtain rfl : Text.beforeFirst w vs = ws := by rw [hvs] at hws; cases hws; rfl
        refine ⟨w :: vs, rfl, False.elim, fun _ => ?_⟩
        rw [size_beforeFirst w (ne_nil_of_splitFrom (by simp) hvs)]
        rw [size]
        omega
  case single =>
    have hmargin : splitFrom .single w (' ' :: ' ' :: s) = splitFrom .single (w ++ [' '] ++ [' ']) s := rfl
    rw [hmargin]
    exact .congr (by simp [BeginsApart]) (keeps_longer (by simp) (by simp) s)
  case double =>
    have hmargin : splitFrom .double w (' ' :: ' ' :: s) = splitFrom .double (w ++ [' '] ++ [' ']) s := rfl
    rw [hmargin]
    exact .congr (by simp [BeginsApart]) (keeps_longer (by simp) (by simp) s)

/-! ## Lines -/

/-- Whether each of some lines that is not blank begins between two words. -/
def LinesApart (p : Position) (ls : List (List Char)) : Prop :=
  ∀ before line rest, ls = before ++ line :: rest → line.all Text.isBlank = false → BeginsApart (p.after before.flatten) line

theorem linesApart_nil (p : Position) : LinesApart p [] := fun before line rest h => by simp at h

theorem linesApart_cons {p : Position} {l : List Char} {ls : List (List Char)} :
    LinesApart p (l :: ls) ↔ (l.all Text.isBlank = false → BeginsApart p l) ∧ LinesApart (p.after l) ls := by
  constructor
  · refine fun h => ⟨h [] l ls rfl, fun before line rest hls hline => ?_⟩
    rw [← Position.after_append]
    exact h (l :: before) line rest (by rw [hls]; rfl) hline
  · rintro ⟨hl, h⟩ (_ | ⟨k, before⟩) line rest hls hline
    · cases hls
      exact hl hline
    · cases hls
      rw [List.flatten_cons, Position.after_append]
      exact h before line rest rfl hline

theorem linesApart_append {p : Position} {ls ms : List (List Char)} :
    LinesApart p (ls ++ ms) ↔ LinesApart p ls ∧ LinesApart (p.after ls.flatten) ms := by
  induction ls generalizing p with
  | nil => exact ⟨fun h => ⟨linesApart_nil p, h⟩, And.right⟩
  | cons l ls ih => rw [List.cons_append, linesApart_cons, linesApart_cons, ih, List.flatten_cons,
      Position.after_append, and_assoc]

theorem linesApart_of_blank {p : Position} {ls : List (List Char)} (h : ∀ l ∈ ls, l.all Text.isBlank = true) :
    LinesApart p ls := by
  rintro before line rest rfl hline
  rw [h line (by simp)] at hline
  cases hline

theorem ne_nil_of_not_blank {l : List Char} (h : l.all Text.isBlank = false) : l ≠ [] := by
  rintro rfl
  cases h

theorem linesApart_concat {p : Position} (s : List Char) :
    LinesApart p (Text.lines (s ++ ['\n'])) ↔ LinesApart p (Text.lines s) := by
  rcases Text.lines_concat s with h | ⟨ls, l, h, h'⟩
  · rw [h, linesApart_append]
    exact and_iff_left (linesApart_of_blank (by decide))
  · have hblank : (l ++ ['\n']).all Text.isBlank = l.all Text.isBlank := by
      have : Text.isBlank '\n' = true := by decide
      simp [this]
    have hone (q : Position) (l : List Char) :
        LinesApart q [l] ↔ (l.all Text.isBlank = false → BeginsApart q l) := by
      rw [linesApart_cons]
      exact and_iff_left (linesApart_nil _)
    rw [h, h', linesApart_append, linesApart_append, hone, hone, hblank]
    exact and_congr_right (fun _ => forall_congr' (fun hl => beginsApart_append (ne_nil_of_not_blank hl) _))

theorem all_isBlank_of_mem_lines {s l : List Char} (h : ∀ c ∈ s, Text.isBlank c = true) (hl : l ∈ Text.lines s) :
    l.all Text.isBlank = true := by
  rw [List.all_eq_true]
  rw [← Text.flatten_lines s] at h
  exact fun c hc => h c (List.mem_flatten_of_mem hl hc)

theorem linesApart_replicate {p : Position} (s : List Char) (n : Nat) :
    LinesApart p (Text.lines (s ++ List.replicate n '\n')) ↔ LinesApart p (Text.lines (s ++ ['\n'])) := by
  cases n with
  | zero =>
    rw [linesApart_concat]
    simp
  | succ n =>
    rw [List.replicate_succ, Text.lines_append_line, linesApart_append]
    refine and_iff_left (linesApart_of_blank (fun l hl => all_isBlank_of_mem_lines (fun c hc => ?_) hl))
    rw [List.eq_of_mem_replicate hc]
    decide

/-- **Indented lines keep their words just where each line that is not blank begins between two words.** -/
theorem keeps_indent : ∀ {ls : List (List Char)}, (∀ l ∈ ls, ∃ c ∈ l.getLast?, Text.endsLine c = true) →
    ∀ {p : Position}, ¬ p.IsEscape → ∀ w : List Char, Keeps (LinesApart p ls) (splitFrom p w ls.flatten)
      (splitFrom p w (ls.flatMap (fun l => if l.all Text.isBlank then l else [' ', ' '] ++ l)))
  | [], _, p, _, w => .of_eq (linesApart_nil p) rfl
  | l :: ls, h, p, hp, w => by
    obtain ⟨hl, h⟩ := List.forall_mem_cons.1 h
    -- first the lines after this one, then this one
    obtain ⟨ws, v, hread⟩ := exists_splitFrom_append p w l
    have hrest := (keeps_indent h (Position.not_isEscape_after hl p) v).append ws
    rw [← hread, ← hread] at hrest
    rw [List.flatten_cons, List.flatMap_cons]
    split
    · rename_i hblank
      exact hrest.congr (by simp [linesApart_cons, hblank])
    · rename_i hblank
      rw [Bool.not_eq_true] at hblank
      refine (hrest.trans (keeps_margin hp w _)).congr ?_
      rw [beginsApart_append (ne_nil_of_not_blank hblank), linesApart_cons, and_comm]
      simp [hblank]

theorem splitFrom_outside_replicate (w : List Char) : ∀ n, splitFrom .outside w (List.replicate n '\n') = .ok []
  | 0 => rfl
  | n + 1 => splitFrom_outside_replicate w n

theorem splitFrom_word_replicate (w : List Char) : ∀ n, splitFrom .word w (List.replicate n '\n') = .ok [w]
  | 0 => rfl
  | n + 1 => by
    show (w :: ·) <$> splitFrom .outside [] (List.replicate n '\n') = _
    rw [splitFrom_outside_replicate]
    rfl

theorem splitFrom_quoted_replicate {p : Position} (hp : p = .single ∨ p = .double) :
    ∀ (n : Nat) (w : List Char), splitFrom p w (List.replicate n '\n') = .error .noClosingQuotation := by
  intro n
  induction n with
  | zero =>
    intro w
    rcases hp with rfl | rfl <;> rfl
  | succ n ih =>
    intro w
    have hrest := ih (w ++ ['\n'])
    rcases hp with rfl | rfl <;> exact hrest

theorem splitFrom_replicate {p : Position} {w : List Char} {n : Nat} {ws : List (List Char)}
    (h : splitFrom p w (List.replicate n '\n') = .ok ws) : splitFrom p w ['\n'] = .ok ws := by
  have hone : ['\n'] = List.replicate 1 '\n' := rfl
  cases p
  case outside => rwa [hone, splitFrom_outside_replicate, ← splitFrom_outside_replicate w n]
  case word => rwa [hone, splitFrom_word_replicate, ← splitFrom_word_replicate w n]
  case single => rw [splitFrom_quoted_replicate (.inl rfl)] at h; cases h
  case double => rw [splitFrom_quoted_replicate (.inr rfl)] at h; cases h
  -- after a backslash the first line feed is a part of the word
  case escape =>
    cases n with
    | zero => cases h
    | succ n => exact (splitFrom_word_replicate (w ++ ['\n']) n).symm.trans h
  case doubleEscape =>
    cases n with
    | zero => cases h
    | succ n => exact absurd ((splitFrom_quoted_replicate (.inr rfl) n (w ++ ['\\', '\n'])).symm.trans h) (by simp)

theorem exists_replicate (s : List Char) :
    ∃ n, s = (s.reverse.dropWhile (· == '\n')).reverse ++ List.replicate n '\n' := by
  refine ⟨(s.reverse.takeWhile (· == '\n')).length, ?_⟩
  have hfeeds : s.reverse.takeWhile (· == '\n') = List.replicate (s.reverse.takeWhile (· == '\n')).length '\n' :=
    List.eq_replicate_of_mem (fun c hc => by simpa using List.mem_takeWhile_imp hc)
  rw [← List.reverse_replicate, ← hfeeds, ← List.reverse_append, List.takeWhile_append_dropWhile, List.reverse_reverse]

end Provision.Shell

namespace Provision

open Shell (Position LinesApart)

/-- **A framed hook has the words of the hook just where each line that is not blank begins between two words.**  A line
that begins inside a word, or inside quotes, is moved into another word by its margin, or moves the words. -/
theorem hookScript_words {snippet : String} {ws : List String} (hne : snippet ≠ "") (hws : Shell.split snippet = .ok ws) :
    ∃ body vs, hookScript snippet = "(\n" ++ body ++ ")\n" ∧ Shell.split body = .ok vs ∧
      (vs = ws ↔ LinesApart .outside (Text.lines snippet.toList)) := by
  obtain ⟨n, hs⟩ := Shell.exists_replicate snippet.toList
  generalize hr : (snippet.toList.reverse.dropWhile (· == '\n')).reverse = r at hs
  obtain ⟨us, hus, rfl⟩ : ∃ us, Shell.splitFrom .outside [] snippet.toList = .ok us ∧ us.map String.ofList = ws := by
    unfold Shell.split at hws
    cases hus : Shell.splitFrom .outside [] snippet.toList with
    | error e => rw [hus] at hws; cases hws
    | ok us => rw [hus] at hws; cases hws; exact ⟨us, rfl, rfl⟩
  -- the body with its last line ended once has the words of the snippet
  have hbody : Shell.splitFrom .outside [] (r ++ ['\n']) = .ok us := by
    obtain ⟨before, w, hread⟩ := Shell.exists_splitFrom_append .outside [] r
    rw [hs, hread] at hus
    rw [hread]
    cases hend : Shell.splitFrom (Position.after .outside r) w (List.replicate n '\n') with
    | error e => rw [hend] at hus; cases hus
    | ok rest => rwa [Shell.splitFrom_replicate hend, ← hend]
  have hends := Text.exists_endsLine_of_mem_lines (r ++ ['\n']) (fun c hc => by
    obtain rfl : '\n' = c := by simpa using hc
    decide)
  have hkeeps := Shell.keeps_indent hends (p := .outside) (by simp [Position.IsEscape]) []
  rw [Text.flatten_lines] at hkeeps
  obtain ⟨vs, hvs, hkept, hmore⟩ := hkeeps us hbody
  refine ⟨String.ofList (Text.indent [' ', ' '] (r ++ ['\n'])), vs.map String.ofList, ?_, ?_, ?_⟩
  · rw [hookScript, if_neg hne, hr]
  · rw [Shell.split, String.toList_ofList, Text.indent, hvs]
    rfl
  · have hinj : Function.Injective (List.map String.ofList) :=
      List.map_injective_iff.2 (fun _ _ => String.ofList_injective)
    rw [hinj.eq_iff, hs, Shell.linesApart_replicate]
    refine ⟨fun heq => ?_, hkept⟩
    by_contra hnot
    exact absurd (hmore hnot) (by rw [heq]; exact Nat.lt_irrefl _)

theorem hookScript_words_two_lines : ∃ body vs, hookScript "echo 'a b'\n\tdate\n" = "(\n" ++ body ++ ")\n" ∧
    Shell.split body = .ok vs ∧
      (vs = ["echo", "a b", "date"] ↔ LinesApart .outside (Text.lines "echo 'a b'\n\tdate\n".toList)) :=
  hookScript_words (by decide) (by decide +kernel)

/-- A text in quotes that has more than one line is changed. -/
theorem hookScript_quoted_lines : ¬ ∀ snippet ws body, Shell.split snippet = .ok ws →
    hookScript snippet = "(\n" ++ body ++ ")\n" → Shell.split body = .ok ws := by
  intro h
  have hsplit := h "echo 'a\nb'" ["echo", "a\nb"] "  echo 'a\n  b'\n" (by decide +kernel) (by decide +kernel)
  exact absurd hsplit (by decide +kernel)

end Provision
