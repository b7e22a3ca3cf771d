import Mathlib.Data.List.Basic
import Provision.Run.Script
/-!
# The command lines of a text

A text whose last line is ended gives its lines and then those of whatever follows (`Text.lines_append_line`), so its command
lines are its own and those of the rest (`Script.commandLines_append_line`).  A comment hides only the line on which it
begins: of a text behind the sign of a comment all lines after the first stay (`Script.commandLines_comment`).
-/
namespace Provision

namespace Text

theorem lines_crlf (rest : List Char) : lines ('\r' :: '\n' :: rest) = ['\r', '\n'] :: lines rest := by rw [lines]

theorem lines_cons_of_endsLine {c : Char} {rest : List Char} (hc : endsLine c = true)
    (hcrlf : ¬ (c = '\r' ∧ rest.head? = some '\n')) : lines (c :: rest) = [c] :: lines rest := by
  rw [lines]
  · simp [hc]
  · rintro rest' rfl rfl
    exact hcrlf ⟨rfl, rfl⟩

/-- Characters put before the first of some texts. -/
def beforeFirst (start : List Char) : List (List Char) → List (List Char)
  | [] => [start]
  | l :: ls => (start ++ l) :: ls

theorem lines_cons_of_not_endsLine {c : Char} (hc : endsLine c = false) (rest : List Char) :
    lines (c :: rest) = beforeFirst [c] (lines rest) := by
  rw [lines]
  · simp only [hc, Bool.false_eq_true, if_false]
    cases lines rest <;> rfl
  · rintro rest' rfl
    simp [endsLine] at hc

theorem beforeFirst_append (start rest : List Char) (ls : List (List Char)) :
    beforeFirst start (beforeFirst rest ls) = beforeFirst (start ++ rest) ls := by
  cases ls <;> simp [beforeFirst]

theorem lines_append_of_not_endsLine {c : Char} {start : List Char} (h : ∀ d ∈ c :: start, endsLine d = false)
    (rest : List Char) : lines (c :: start ++ rest) = beforeFirst (c :: start) (lines rest) := by
  induction start generalizing c with
  | nil => exact lines_cons_of_not_endsLine (h c List.mem_cons_self) rest
  | cons d start ih =>
    rw [List.cons_append, lines_cons_of_not_endsLine (h c List.mem_cons_self),
      ih (fun e he => h e (List.mem_cons_of_mem _ he)), beforeFirst_append]
    rfl

/-- **After the end of a line new lines begin.** -/
theorem lines_append_line : ∀ s t : List Char, lines (s ++ '\n' :: t) = lines (s ++ ['\n']) ++ lines t
  | [], t => by
    rw [List.nil_append, List.nil_append, lines_cons_of_endsLine (by decide) (by simp),
      lines_cons_of_endsLine (by decide) (by simp)]
    rfl
  | c :: s, t => by
    by_cases hcrlf : c = '\r' ∧ (s ++ ['\n']).head? = some '\n'
    · obtain ⟨rfl, hs⟩ := hcrlf
      -- the boundary ends here, or in the text before
      cases s with
      | nil =>
        simp only [List.cons_append, List.nil_append, lines_crlf]
        rfl
      | cons d s =>
        obtain rfl : d = '\n' := by simpa using hs
        simp only [List.cons_append, lines_crlf, lines_append_line s t]
    · have ih := lines_append_line s t
      have hhead : (s ++ '\n' :: t).head? = (s ++ ['\n']).head? := by cases s <;> rfl
      by_cases hc : endsLine c = true
      · rw [List.cons_append, List.cons_append, lines_cons_of_endsLine hc (hhead ▸ hcrlf),
          lines_cons_of_endsLine hc hcrlf, ih, List.cons_append]
      · rw [Bool.not_eq_true] at hc
        have hne : lines (s ++ ['\n']) ≠ [] := fun hnil => by
          have := flatten_lines (s ++ ['\n'])
          simp [hnil] at this
        obtain ⟨l, ls, hl⟩ := List.exists_cons_of_ne_nil hne
        rw [List.cons_append, List.cons_append, lines_cons_of_not_endsLine hc, lines_cons_of_not_endsLine hc, ih, hl]
        rfl

/-- A line feed at the end of a text is a line of its own, or it ends the last line. -/
theorem lines_concat : ∀ s : List Char, lines (s ++ ['\n']) = lines s ++ [['\n']] ∨
    ∃ ls l, lines s = ls ++ [l] ∧ lines (s ++ ['\n']) = ls ++ [l ++ ['\n']]
  | [] => .inl rfl
  | c :: s => by
    by_cases hcrlf : c = '\r' ∧ (s ++ ['\n']).head? = some '\n'
    · obtain ⟨rfl, hs⟩ := hcrlf
      cases s with
      | nil => exact .inr ⟨[], ['\r'], rfl, rfl⟩
      | cons d s =>
        obtain rfl : d = '\n' := by simpa using hs
        simp only [List.cons_append, lines_crlf]
        rcases lines_concat s with h | ⟨ls, l, h, h'⟩
        · exact .inl (by rw [h])
        · exact .inr ⟨['\r', '\n'] :: ls, l, by rw [h, List.cons_append], by rw [h', List.cons_append]⟩
    · by_cases hc : endsLine c = true
      · have hcrlf' : ¬ (c = '\r' ∧ s.head? = some '\n') := fun ⟨h, hs⟩ => hcrlf ⟨h, by cases s <;> simp_all⟩
        rw [List.cons_append, lines_cons_of_endsLine hc hcrlf, lines_cons_of_endsLine hc hcrlf']
        rcases lines_concat s with h | ⟨ls, l, h, h'⟩
        · exact .inl (by rw [h, List.cons_append])
        · exact .inr ⟨[c] :: ls, l, by rw [h, List.cons_append], by rw [h', List.cons_append]⟩
      · rw [Bool.not_eq_true] at hc
        rw [List.cons_append, lines_cons_of_not_endsLine hc, lines_cons_of_not_endsLine hc]
        rcases lines_concat s with h | ⟨_ | ⟨k, ls⟩, l, h, h'⟩
        · cases hls : lines s with
          | nil =>
            rw [hls] at h
            exact .inr ⟨[], [c], rfl, by rw [h]; rfl⟩
          | cons l ls => exact .inl (by rw [h, hls]; rfl)
        · exact .inr ⟨[], c :: l, by rw [h]; rfl, by rw [h']; rfl⟩
        · exact .inr ⟨(c :: k) :: ls, l, by rw [h]; rfl, by rw [h']; rfl⟩

theorem lineBody_concat : ∀ l : List Char, lineBody (l ++ ['\n']) = lineBody l
  | [] => rfl
  | c :: l => by
    rw [lineBody, lineBody, List.cons_append, List.takeWhile_cons, List.takeWhile_cons]
    split
    · exact congrArg (c :: ·) (lineBody_concat l)
    · rfl

theorem map_lineBody_lines_concat (s : List Char) : (lines (s ++ ['\n'])).map lineBody = (lines s).map lineBody ∨
    (lines (s ++ ['\n'])).map lineBody = (lines s).map lineBody ++ [[]] := by
  rcases lines_concat s with h | ⟨ls, l, h, h'⟩
  · exact .inr (by rw [h, List.map_append]; rfl)
  · exact .inl (by simp only [h, h', List.map_append, List.map_cons, lineBody_concat])

theorem exists_endsLine_of_mem_lines (s : List Char) (h : ∀ c ∈ s.getLast?, endsLine c = true) :
    ∀ l ∈ lines s, ∃ c ∈ l.getLast?, endsLine c = true := by
  fun_induction lines s with
  | case1 => simp
  | case2 rest ih =>
    refine List.forall_mem_cons.2 ⟨⟨'\n', rfl, by decide⟩, ih (fun c hc => h c ?_)⟩
    simp_all [List.getLast?_cons]
  | case3 c rest _ hc ih =>
    refine List.forall_mem_cons.2 ⟨⟨c, rfl, hc⟩, ih (fun d hd => h d ?_)⟩
    simp_all [List.getLast?_cons]
  | case4 c rest _ hc hrest =>
    obtain rfl : rest = [] := by simpa [hrest] using (flatten_lines rest).symm
    exact absurd (h c rfl) hc
  | case5 c rest _ _ l ls hrest ih =>
    rw [hrest] at ih
    have hne : rest ≠ [] := fun hnil => by simp [hnil, lines] at hrest
    have hl := List.forall_mem_cons.1 (ih (fun d hd => h d (by simp_all [List.getLast?_cons])))
    obtain ⟨d, hd, hends⟩ := hl.1
    exact List.forall_mem_cons.2 ⟨⟨d, by simp_all [List.getLast?_cons], hends⟩, hl.2⟩

end Text

namespace Script

def commandOn? (body : List Char) : Option String :=
  let command := Text.trim body
  if command = [] ∨ command.head? = some '#' then none else some (String.ofList command)

def commandsOn (lines : List (List Char)) : List String := (lines.map Text.lineBody).filterMap commandOn?

theorem commandLines_eq (script : String) : commandLines script = commandsOn (Text.lines script.toList) := by
  unfold commandLines commandsOn
  induction Text.lines script.toList with
  | nil => rfl
  | cons l ls ih =>
    simp only [List.map_cons, List.filterMap_cons, List.filter_cons, commandOn?]
    split <;> split <;> simp_all

theorem commandsOn_append (ls ms : List (List Char)) : commandsOn (ls ++ ms) = commandsOn ls ++ commandsOn ms := by
  simp [commandsOn]

theorem commandsOn_eq_nil_iff {ls : List (List Char)} :
    commandsOn ls = [] ↔ ∀ l ∈ ls, Text.trim (Text.lineBody l) = [] ∨ (Text.trim (Text.lineBody l)).head? = some '#' := by
  simp [commandsOn, commandOn?, or_iff_not_imp_left]

/-- **The command lines of a text that ends with a line, and of what follows.** -/
theorem commandLines_append_line (s t : String) :
    commandLines (s ++ "\n" ++ t) = commandLines (s ++ "\n") ++ commandLines t := by
  have hlines := Text.lines_append_line s.toList t.toList
  simp only [commandLines_eq, String.toList_append, ← commandsOn_append]
  exact congrArg _ (by simpa using hlines)

theorem commandsOn_tail_concat (s : List Char) :
    commandsOn (Text.lines (s ++ ['\n'])).tail = commandsOn (Text.lines s).tail := by
  unfold commandsOn
  rw [List.map_tail, List.map_tail]
  rcases Text.map_lineBody_lines_concat s with h | h
  · rw [h]
  · rw [h]
    cases (Text.lines s).map Text.lineBody with
    | nil => rfl
    | cons b bs => simp [commandOn?, Text.trim, Text.trimLeft, Text.trimRight]

theorem commandOn?_comment (body : List Char) : commandOn? ('#' :: body) = none := by
  have htrim : (Text.trim ('#' :: body)).head? = some '#' := by
    have hleft : Text.trimLeft ('#' :: body) = '#' :: body := List.dropWhile_cons_of_neg (by decide)
    rw [Text.trim, hleft, Text.trimRight, List.reverse_cons, List.dropWhile_append]
    split
    · rfl
    · simp
  simp [commandOn?, htrim]

/-- **A comment hides the first line of a text and no other.** -/
theorem commandLines_comment {start : List Char} (h : ∀ c ∈ start, Text.endsLine c = false) (s : String) :
    commandLines (String.ofList ('#' :: start) ++ s ++ "\n") = commandsOn (Text.lines s.toList).tail := by
  have hstart : ∀ c ∈ '#' :: start, Text.endsLine c = false := List.forall_mem_cons.2 ⟨by decide, h⟩
  have htext : (String.ofList ('#' :: start) ++ s ++ "\n").toList = '#' :: start ++ (s.toList ++ ['\n']) := by
    simp [String.toList_append]
  rw [commandLines_eq, htext, Text.lines_append_of_not_endsLine hstart, ← commandsOn_tail_concat]
  -- the first line is the comment
  have hfirst (rest : List Char) (ls : List (List Char)) :
      commandsOn (('#' :: rest) :: ls) = commandsOn ls := by
    have hbody : Text.lineBody ('#' :: rest) = '#' :: Text.lineBody rest := List.takeWhile_cons_of_pos (by decide)
    simp [commandsOn, hbody, commandOn?_comment]
  cases Text.lines (s.toList ++ ['\n']) with
  | nil => exact hfirst start []
  | cons l ls => exact hfirst (start ++ l) ls

end Script

end Provision
