import Mathlib.Data.List.TakeWhile
import Provision.CommandLine.Execute
import Provision.Proofs.Text.Lines
/-!
# Reading a report back

The report of a simulation writes every command on a line of its own, after its number, a point and a space; no other
line of it begins with a digit.  So the numbered commands can be read off the text (`Report.entries`), and what is read
is the commands of all scripts, numbered from one on (`Report.entries_summary`).
-/
namespace Provision

open CommandLine (summary)

namespace Report

def item? (line : List Char) : Option (Nat × String) :=
  match line.takeWhile Char.isDigit, line.dropWhile Char.isDigit with
  | d :: ds, '.' :: ' ' :: command => some (Nat.ofDigitChars 10 (d :: ds) 0, String.ofList command)
  | _, _ => none

/-- The numbered commands of a text, line by line. -/
def entries (text : String) : List (Nat × String) := (text.toList.splitOn '\n').filterMap item?

def numbering (n : Nat) (commands : List String) : List (Nat × String) := (commands.zipIdx n).map Prod.swap

theorem entries_append_line (s t : String) : entries (s ++ "\n" ++ t) = entries s ++ entries t := by
  have hsplit : (s.toList ++ '\n' :: t.toList).splitOn '\n' = s.toList.splitOn '\n' ++ t.toList.splitOn '\n' :=
    List.splitOnP_append_cons _ _ (beq_self_eq_true '\n')
  rw [entries, String.toList_append, String.toList_append, List.append_assoc]
  change ((s.toList ++ '\n' :: t.toList).splitOn '\n').filterMap item? = _
  rw [hsplit, List.filterMap_append]
  rfl

theorem entries_intercalate : ∀ ls : List String, entries ("\n".intercalate ls) = ls.flatMap entries
  | [] => by decide +kernel
  | [l] => by simp
  | l :: m :: ls => by
    have hcons : "\n".intercalate (l :: m :: ls) = l ++ "\n" ++ "\n".intercalate (m :: ls) := by simp
    rw [hcons, entries_append_line, entries_intercalate (m :: ls)]
    rfl

theorem entries_line {line : String} (h : '\n' ∉ line.toList) : entries line = (item? line.toList).toList := by
  have hsplit : line.toList.splitOn '\n' = [line.toList] := by
    rw [List.splitOn, List.splitOnP_eq_singleton]
    intro c hc
    simpa using fun e : c = '\n' => h (e ▸ hc)
  rw [entries, hsplit]
  cases hitem : item? line.toList <;> simp [hitem]

theorem entries_of_head {line : String} (hhead : ∀ c ∈ line.toList.head?, c.isDigit = false) (h : '\n' ∉ line.toList) :
    entries line = [] := by
  rw [entries_line h]
  cases hl : line.toList with
  | nil => rfl
  | cons c rest => simp [item?, hhead c (hl ▸ rfl)]

theorem entries_bar {c : Char} (hc : c.isDigit = false) (hline : c ≠ '\n') (n : Nat) :
    entries (String.ofList (List.replicate n c)) = [] := by
  refine entries_of_head (fun d hd => ?_) fun h => ?_
  · rw [String.toList_ofList] at hd
    rw [List.eq_of_mem_replicate (List.mem_of_mem_head? hd), hc]
  · rw [String.toList_ofList] at h
    exact hline (List.eq_of_mem_replicate h).symm

theorem entries_wrap {code text : String} (hcode : code.toList.head? = some '\x1b' ∧ '\n' ∉ code.toList)
    (htext : text.toList.head?.all (!·.isDigit) = true) (hline : '\n' ∉ text.toList) (coloured : Bool) :
    entries (Colour.wrap code text coloured) = [] := by
  cases coloured with
  | false => exact entries_of_head (fun c hc => by simpa using (Option.all_eq_true _ _).1 htext c hc) hline
  | true =>
    obtain ⟨hhead, hfree⟩ := hcode
    have hreset : '\n' ∉ Colour.reset.code.toList := by decide +kernel
    refine entries_of_head (fun c hc => ?_) fun h => ?_
    · rw [Colour.wrap, if_pos rfl, String.toList_append, String.toList_append, List.append_assoc,
        List.head?_append_of_ne_nil _ (by rintro hnil; rw [hnil] at hhead; cases hhead), hhead] at hc
      rw [← Option.some.inj hc]
      decide
    · rw [Colour.wrap, if_pos rfl, String.toList_append, String.toList_append, List.mem_append, List.mem_append] at h
      exact h.elim (fun h => h.elim hfree hline) hreset

theorem entries_numbered (n : Nat) {command : String} (h : '\n' ∉ command.toList) :
    entries (toString n ++ ". " ++ command) = [(n, command)] := by
  have hdigits : ∀ c ∈ Nat.toDigits 10 n, c.isDigit = true := fun c hc =>
    Nat.isDigit_of_mem_toDigits (by decide) (by decide) hc
  have hline : (toString n ++ ". " ++ command).toList = Nat.toDigits 10 n ++ '.' :: ' ' :: command.toList := by
    rw [String.toList_append, String.toList_append, show toString n = n.repr from rfl, Nat.toList_repr, List.append_assoc]
    rfl
  have hfree : '\n' ∉ (toString n ++ ". " ++ command).toList := by
    rw [hline, List.mem_append, List.mem_cons, List.mem_cons]
    rintro (hc | hc | hc | hc)
    · exact absurd (hdigits _ hc) (by decide)
    · cases hc
    · cases hc
    · exact h hc
  rw [entries_line hfree, hline, item?, List.takeWhile_append_of_pos hdigits, List.dropWhile_append_of_pos hdigits]
  cases hd : Nat.toDigits 10 n with
  | nil => exact absurd hd Nat.toDigits_ne_nil
  | cons d ds =>
    have hvalue : Nat.ofDigitChars 10 (d :: ds) 0 = n := hd ▸ Nat.ofDigitChars_toDigits (by decide) (by decide)
    simp [List.takeWhile, List.dropWhile, hvalue]

theorem flatMap_entries_numbered : ∀ (n : Nat) (commands : List String), (∀ l ∈ commands, '\n' ∉ l.toList) →
    (Runner.numbered n commands).flatMap entries = numbering n commands
  | _, [], _ => rfl
  | n, l :: ls, h => by
    obtain ⟨hl, hls⟩ := List.forall_mem_cons.1 h
    rw [Runner.numbered, List.flatMap_cons, entries_numbered n hl, flatMap_entries_numbered (n + 1) ls hls]
    rfl

/-- **Scripts that can be reported**: no title looks like a command, and every command is one line. -/
def IsReportable (scripts : List ScriptRecord) : Prop :=
  ∀ s ∈ scripts, entries (Text.upperCase s.name ++ " SCRIPT:") = [] ∧ ∀ l ∈ s.commands, '\n' ∉ l.toList

/-- The commands of scripts are numbered across all of them. -/
theorem flatMap_entries_reportScripts : ∀ (n : Nat) (scripts : List ScriptRecord), IsReportable scripts →
    (Runner.reportScripts n scripts).flatMap entries = numbering (n + 1) (scripts.flatMap (·.commands))
  | _, [], _ => rfl
  | n, s :: scripts, h => by
    obtain ⟨⟨htitle, hcommands⟩, hrest⟩ := List.forall_mem_cons.1 h
    have hdashes : entries (String.ofList (List.replicate 40 '-')) = [] := entries_bar (by decide) (by decide) 40
    have hblank : entries "" = [] := by decide +kernel
    rw [Runner.reportScripts, List.flatMap_append, List.flatMap_append, List.flatMap_append,
      flatMap_entries_numbered _ _ hcommands, flatMap_entries_reportScripts _ scripts hrest]
    simp only [List.flatMap_cons, List.flatMap_nil, htitle, hdashes, hblank, List.nil_append, List.append_nil, numbering,
      List.zipIdx_append, List.map_append]
    rw [Nat.add_right_comm]

theorem entries_total (n : Nat) : entries ("Total commands simulated: " ++ toString n) = [] := by
  have hline : ("Total commands simulated: " ++ toString n).toList =
      "Total commands simulated: ".toList ++ Nat.toDigits 10 n := by
    rw [String.toList_append, show toString n = n.repr from rfl, Nat.toList_repr]
  refine entries_of_head (fun c hc => ?_) fun h => ?_
  · rw [hline, List.head?_append_of_ne_nil _ (by decide +kernel)] at hc
    obtain rfl : 'T' = c := Option.some.inj hc
    decide
  · rw [hline] at h
    rcases List.mem_append.1 h with hc | hc
    · exact absurd hc (by decide +kernel)
    · exact absurd (Nat.isDigit_of_mem_toDigits (by decide) (by decide) hc) (by decide)

theorem entries_report {r : Runner} (hr : r.simulating = true) {scripts : List ScriptRecord} (h : IsReportable scripts) :
    entries (r.report scripts) = numbering 1 (scripts.flatMap (·.commands)) := by
  have hbar : entries (String.ofList (List.replicate 80 '=')) = [] := entries_bar (by decide) (by decide) 80
  have hdashes : entries (String.ofList (List.replicate 80 '-')) = [] := entries_bar (by decide) (by decide) 80
  have hid : entries ("SIMULATION REPORT [ID: " ++ Runner.simulationId ++ "]") = [] := by decide +kernel
  have hblank : entries "" = [] := by decide +kernel
  rw [Runner.report, if_neg (by simp [hr]), entries_intercalate]
  simp only [List.flatMap_append, List.flatMap_cons, List.flatMap_nil, flatMap_entries_reportScripts 0 scripts h, hbar,
    hdashes, hid, hblank, entries_total, List.append_nil, List.nil_append]

/-- **What a simulation prints at its end** lists the commands of all scripts, numbered from one on. -/
theorem entries_summary {r : Runner} (hr : r.simulating = true) {scripts : List ScriptRecord} (h : IsReportable scripts) :
    entries (summary r scripts) = numbering 1 (scripts.flatMap (·.commands)) := by
  have hblank : entries "" = [] := by decide +kernel
  have hsimulation : Colour.simulation.code.toList.head? = some '\x1b' ∧ '\n' ∉ Colour.simulation.code.toList := by
    decide +kernel
  have hstars : ∀ coloured, entries (Colour.simulation.paint
      (String.ofList (List.replicate CommandLine.summaryWidth '*')) coloured) = [] :=
    entries_wrap hsimulation (by rw [String.toList_ofList]; decide) (by simp)
  have htitle : ∀ coloured, entries (Colour.wrap (Colour.simulation.code ++ Colour.bold.code)
      "SIMULATION COMPLETE - NO CHANGES WERE MADE" coloured) = [] :=
    entries_wrap (by decide +kernel) (by rw [String.toList_ofList]; decide) (by rw [String.toList_ofList]; decide)
  have hheading : ∀ coloured, entries (Colour.success.paint
      "The following operations would have been performed:" coloured) = [] :=
    entries_wrap (by decide +kernel) (by rw [String.toList_ofList]; decide) (by rw [String.toList_ofList]; decide)
  have hclosing : ∀ coloured, entries (Colour.simulation.paint
      "To execute these operations for real, run without the --simulate flag." coloured) = [] :=
    entries_wrap hsimulation (by rw [String.toList_ofList]; decide) (by rw [String.toList_ofList]; decide)
  rw [summary, entries_intercalate]
  simp only [List.flatMap_cons, List.flatMap_nil, entries_report hr h, hblank, hstars, htitle, hheading, hclosing,
    List.append_nil, List.nil_append]

end Report

namespace Script

theorem newline_notMem_commandLines {script command : String} (h : command ∈ commandLines script) :
    '\n' ∉ command.toList := by
  rw [commandLines, List.mem_map] at h
  obtain ⟨body, hbody, rfl⟩ := h
  obtain ⟨line, -, rfl⟩ := List.mem_map.1 (List.mem_filter.1 hbody).1
  intro hmem
  rw [String.toList_ofList, Text.trim, Text.trimRight, List.mem_reverse] at hmem
  have hline : '\n' ∈ Text.lineBody line :=
    (List.dropWhile_sublist _).mem (List.mem_reverse.1 ((List.dropWhile_sublist _).mem hmem))
  exact absurd (List.mem_takeWhile_imp hline) (by decide)

end Script

end Provision
