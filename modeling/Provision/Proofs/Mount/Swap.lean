import Provision.Compile
import Provision.Proofs.Layout.Fits
import Provision.Proofs.Shell.Clauses
import Provision.Proofs.Shell.Patterns
/-!
# The guard of a swap device

A swap device is enabled under a condition (`Conditional`): the list of swap devices is searched for a line that begins
with its path, which stands in the pattern of the search as it is.  So the guard asks for this device and no other
exactly where no character of the path has a meaning in a pattern (`swap_guard_exact_iff`).
-/
namespace Provision

open Shell (Token lex)
open Value (entry node)

def Shell.wordsOf? (ts : List Token) : Option (List String) :=
  ts.mapM (fun t => match t with
    | .word w _ => some (String.ofList w)
    | .sign _ => none)

/-- A command that runs where a question is answered with no. -/
structure Conditional where
  /-- The commands of the question, each of which reads what the one before it prints. -/
  question : List (List String)
  command : List String
  deriving DecidableEq, Repr

theorem eq_of_append_cons {α : Type} {c : α} :
    ∀ {xs ys s t : List α}, c ∉ xs → c ∉ ys → xs ++ c :: s = ys ++ c :: t → xs = ys
  | [], [], _, _, _, _, _ => rfl
  | [], y :: ys, _, _, _, hy, h => absurd ((List.cons.inj h).1 ▸ List.mem_cons_self) hy
  | x :: xs, [], _, _, hx, _, h => absurd ((List.cons.inj h).1 ▸ List.mem_cons_self) hx
  | x :: xs, y :: ys, _, _, hx, hy, h => by
    obtain ⟨rfl, hrest⟩ := List.cons.inj h
    rw [eq_of_append_cons (fun hc => hx (List.mem_cons_of_mem _ hc)) (fun hc => hy (List.mem_cons_of_mem _ hc)) hrest]

namespace Conditional

def read? (script : String) : Option Conditional :=
  match (lex script.toList).splitOn (.sign ';') with
  | [.word ['i', 'f'] true :: .word ['!'] true :: question, .word ['t', 'h', 'e', 'n'] true :: .sign '\n' :: body] =>
    match body.splitOn (.sign '\n') with
    | [command, [.word ['f', 'i'] true], []] => do
      return ⟨← (question.splitOn (.sign '|')).mapM Shell.wordsOf?, ← Shell.wordsOf? command⟩
    | _ => none
  | _ => none

def runs? (names : List Char → Option (Char → Bool)) (lines : List String) (c : Conditional) : Option (List (List String)) :=
  match c.question with
  | [["swapon", "--show"], ["grep", "-q", pattern]] =>
    (Grep.status? names pattern lines).map (fun status => if status = 0 then [] else [c.command])
  | _ => none

end Conditional

/-- **The condition under which a swap device is enabled.** -/
theorem Mounting.read?_swap (d : String) : Conditional.read? (swap d).script =
    some ⟨[["swapon", "--show"], ["grep", "-q", "^" ++ d ++ " "]], ["swapon", d]⟩ := by
  have htext : (swap d).script.toList = "if ! ".toList ++ ("swapon --show | grep -q ".toList ++
      (Shell.quoteChars ("^" ++ d ++ " ").toList ++ ("; then\n  ".toList ++
        ((Shell.commandLine ["swapon", d]).toList ++ "\nfi\n".toList)))) := by
    have htext : (swap d).script = "if ! " ++ ("swapon --show | grep -q " ++ Shell.quote ("^" ++ d ++ " ")) ++
        "; then\n  " ++ Shell.commandLine ["swapon", d] ++ "\nfi\n" := rfl
    rw [htext, Shell.quote]
    simp only [String.toList_append, String.toList_ofList, List.append_assoc]
  have hif (rest : List Char) : lex ("if ! ".toList ++ rest) = .word ['i', 'f'] true :: .word ['!'] true :: lex rest := rfl
  have hsearch (rest : List Char) : lex ("swapon --show | grep -q ".toList ++ rest) = Shell.bareWord "swapon" ::
      Shell.bareWord "--show" :: .sign '|' :: Shell.bareWord "grep" :: Shell.bareWord "-q" :: lex rest := by
    rw [String.toList_ofList]
    rfl
  have hthen (rest : List Char) : lex ("; then\n  ".toList ++ rest) =
      .sign ';' :: .word ['t', 'h', 'e', 'n'] true :: .sign '\n' :: lex rest := by
    rw [String.toList_ofList]
    rfl
  have hend : lex "\nfi\n".toList = [.sign '\n', .word ['f', 'i'] true, .sign '\n'] := rfl
  have hwords : Shell.wordTokens ["swapon", d] = [Shell.bareWord "swapon", .word d.toList (Shell.isBare d.toList)] := by
    have hbare : Shell.isBare "swapon".toList = true := by decide
    simp only [Shell.wordTokens, Shell.bareWord, List.map_cons, List.map_nil, hbare]
  have hcloses (rest : List Char) : Shell.ClosesWord ("; then\n  ".toList ++ rest) := .append (by decide) rest
  have hends : Shell.ClosesWord "\nfi\n".toList := by decide
  rw [Conditional.read?, htext, hif, hsearch, Shell.lex_quote (hcloses _), hthen,
    Shell.lex_commandLine hends _ (List.cons_ne_nil _ _), hwords, hend]
  simp [Shell.bareWord, List.splitOn_eq_splitOnP, List.splitOnP_cons_eq_if_modifyHead, Shell.wordsOf?, String.append_assoc]

namespace Grep

variable {names : List Char → Option (Char → Bool)}

theorem status?_eq {pattern : String} (h : '\n' ∉ pattern.toList) (lines : List String) :
    status? names pattern lines = match read names pattern.toList with
      | .ok ps => some (if lines.any (fun l => beginsAs names ps l.toList) then 0 else 1)
      | .error .invalid => some 2
      | .error .unread => none := by
  have hsplit : pattern.toList.splitOn '\n' = [pattern.toList] := by
    rw [List.splitOn_eq_splitOnP]
    exact List.splitOnP_eq_singleton (fun c hc => by simpa using fun e : c = '\n' => h (e ▸ hc))
  rw [status?, hsplit, List.mapM_cons, List.mapM_nil]
  cases hread : read names pattern.toList with
  | ok ps => simp [bind, Except.bind, pure, Except.pure]
  | error f => cases f <;> rfl

end Grep

namespace Mounting

def runs? (names : List Char → Option (Char → Bool)) (lines : List String) (m : Mounting) : Option (List (List String)) :=
  (Conditional.read? m.script).bind (Conditional.runs? names lines)

variable {names : List Char → Option (Char → Bool)} {d : String}

/-- **When a swap device is enabled**: where no line begins as its pattern says, or the pattern is none. -/
theorem runs?_swap (hline : '\n' ∉ d.toList) (lines : List String) : (swap d).runs? names lines =
    match Grep.readFrom names .text [] (d.toList ++ [' ']) with
      | .ok ps => some (if lines.any (fun l => Grep.beginsAs names ps l.toList) then [] else [["swapon", d]])
      | .error .invalid => some [["swapon", d]]
      | .error .unread => none := by
  have hpattern : ("^" ++ d ++ " ").toList = '^' :: (d.toList ++ [' ']) := by simp
  have hasks (p : String) (c : List String) : Conditional.runs? names lines ⟨[["swapon", "--show"], ["grep", "-q", p]], c⟩ =
      (Grep.status? names p lines).map (fun status => if status = 0 then [] else [c]) := by
    simp [Conditional.runs?]
  rw [runs?, read?_swap, Option.bind_some, hasks, Grep.status?_eq (by rw [hpattern]; simp [hline]), hpattern, Grep.read]
  cases hread : Grep.readFrom names .text [] (d.toList ++ [' ']) with
  | ok ps =>
    dsimp only
    split_ifs <;> rfl
  | error f => cases f <;> rfl

end Mounting

/-- **The lines that list devices**: each begins with the path of one, and a space. -/
def Lists (active lines : List String) : Prop := List.Forall₂ (fun p l => ∃ rest, l = p ++ " " ++ rest) active lines

theorem lists_singleton (p : String) : Lists [p] [p ++ " "] := .cons ⟨"", (String.append_empty).symm⟩ .nil

namespace Mounting

variable {names : List Char → Option (Char → Bool)} {d : String}

/-- Whether the guard of a swap device asks for this device and no other, whichever are in use. -/
def GuardsItself (names : List Char → Option (Char → Bool)) (d : String) : Prop :=
  ∀ active lines : List String, (∀ p ∈ active, ' ' ∉ p.toList ∧ '\n' ∉ p.toList) → Lists active lines →
    ∃ calls, (swap d).runs? names lines = some calls ∧ (["swapon", d] ∈ calls ↔ d ∉ active)

theorem guardsItself_of_literal (hspace : ' ' ∉ d.toList) (hline : '\n' ∉ d.toList) (hliteral : Grep.IsLiteral d.toList) :
    GuardsItself names d := by
  intro active lines hactive hlists
  obtain ⟨hdot, hlist, hescape, hstar⟩ := hliteral
  have hread : Grep.readFrom names .text [] (d.toList ++ [' ']) = .ok ((d.toList ++ [' ']).map (⟨.char ·, false⟩)) :=
    Grep.readFrom_literal (by decide) hdot hlist hescape (by rwa [if_pos rfl])
  have hbegins {p l : String} (hp : ' ' ∉ p.toList) (hl : ∃ rest, l = p ++ " " ++ rest) :
      Grep.beginsAs names ((d.toList ++ [' ']).map (⟨.char ·, false⟩)) l.toList = true ↔ p = d := by
    obtain ⟨rest, rfl⟩ := hl
    have htext : (p ++ " " ++ rest).toList = p.toList ++ ' ' :: rest.toList := by simp
    rw [Grep.beginsAs_iff, htext]
    simp only [Grep.spells_literal_iff]
    constructor
    · rintro ⟨u, tail, hsame, rfl⟩
      rw [List.append_assoc] at hsame
      exact String.toList_injective (eq_of_append_cons hp hspace hsame)
    · rintro rfl
      exact ⟨_, rest.toList, by simp, rfl⟩
  have hany : lines.any (fun l => Grep.beginsAs names ((d.toList ++ [' ']).map (⟨.char ·, false⟩)) l.toList) = true ↔
      d ∈ active := by
    rw [List.any_eq_true]
    constructor
    · rintro ⟨l, hl, hbegin⟩
      obtain ⟨p, hp, hpl⟩ := exists_left_of_forall₂ hlists hl
      exact (hbegins (hactive p hp).1 hpl).1 hbegin ▸ hp
    · intro hd
      obtain ⟨l, hl, hdl⟩ := exists_right_of_forall₂ hlists hd
      exact ⟨l, hl, (hbegins hspace hdl).2 rfl⟩
  refine ⟨_, by rw [runs?_swap hline, hread], ?_⟩
  by_cases hd : d ∈ active
  · rw [if_pos (hany.2 hd)]
    exact iff_of_false List.not_mem_nil (not_not.2 hd)
  · rw [if_neg (fun h => hd (hany.1 h))]
    exact iff_of_true (List.mem_singleton.2 rfl) hd

theorem spells_of_guardsItself {ps : List Grep.Piece} (hspace : ' ' ∉ d.toList) (hline : '\n' ∉ d.toList)
    (hread : Grep.readFrom names .text [] (d.toList ++ [' ']) = .ok (ps ++ [⟨.char ' ', false⟩])) (h : GuardsItself names d)
    {p : String} (hp : ' ' ∉ p.toList) (hpline : '\n' ∉ p.toList) : Grep.Spells names ps p.toList ↔ p = d := by
  obtain ⟨calls, hcalls, hruns⟩ := h [p] [p ++ " "] (by simpa using ⟨hp, hpline⟩) (lists_singleton p)
  rw [runs?_swap hline, hread, Option.some.injEq] at hcalls
  have htext : (p ++ " ").toList = p.toList ++ [' '] := by simp
  rw [List.any_cons, List.any_nil, Bool.or_false, htext] at hcalls
  have hbegins : Grep.beginsAs names (ps ++ [⟨.char ' ', false⟩]) (p.toList ++ [' ']) = true ↔
      Grep.Spells names ps p.toList := by
    rw [Grep.beginsAs_iff]
    constructor
    · rintro ⟨u, rest, hsame, hu⟩
      obtain ⟨v, rfl, hv⟩ := hu.exists_of_concat
      -- the only space is the last character
      have hspaceless : ' ' ∉ v := fun hmem => by
        have hcount := congrArg (List.count ' ') hsame
        have := List.count_pos_iff.2 hmem
        simp only [List.count_append, List.count_cons_self, List.count_nil, List.count_eq_zero_of_not_mem hp] at hcount
        omega
      rw [List.append_assoc] at hsame
      exact eq_of_append_cons hp hspaceless hsame ▸ hv
    · intro hs
      exact ⟨_, [], (List.append_nil _).symm, hs.concat⟩
  rw [← hbegins]
  split_ifs at hcalls with hfound
  · refine iff_of_true hfound (by_contra fun hne => ?_)
    have hmem := hruns.2 (fun hd => hne (List.mem_singleton.1 hd).symm)
    rw [← hcalls] at hmem
    cases hmem
  · refine iff_of_false hfound ?_
    rintro rfl
    exact hruns.1 (hcalls ▸ List.mem_singleton.2 rfl) (List.mem_singleton.2 rfl)

end Mounting

open Mounting (GuardsItself)

/-- **Where the guard of a swap device is exact.**  A path without a space and without a line break is what the guard
asks for, whichever devices are in use, exactly where no character of it has a meaning in a pattern: it has no dot, no
opening bracket and no backslash, and no asterisk behind its first character.  Paths with a backslash before another
character than those are left out, as what they mean is not the same everywhere. -/
theorem swap_guard_exact_iff {names : List Char → Option (Char → Bool)} {d : String} (hspace : ' ' ∉ d.toList)
    (hline : '\n' ∉ d.toList)
    (hread : Grep.readFrom names .text [] (d.toList ++ [' ']) ≠ .error .unread) :
    GuardsItself names d ↔ Grep.IsLiteral d.toList := by
  refine ⟨fun h => ?_, Mounting.guardsItself_of_literal hspace hline⟩
  cases hpieces : Grep.readFrom names .text [] (d.toList ++ [' ']) with
  | error f =>
    cases f with
    | unread => exact absurd hpieces hread
    | invalid =>
      -- an invalid pattern finds no device
      obtain ⟨calls, hcalls, hruns⟩ := h [d] [d ++ " "] (by simpa using ⟨hspace, hline⟩) (lists_singleton d)
      rw [Mounting.runs?_swap hline, hpieces, Option.some.injEq] at hcalls
      exact absurd (List.mem_singleton.2 rfl) (hruns.1 (hcalls ▸ List.mem_singleton.2 rfl))
  | ok ps =>
    obtain ⟨ps, rfl⟩ := Grep.exists_last_of_readFrom (by decide) (by decide) hpieces
    have hspells {p : String} := Mounting.spells_of_guardsItself hspace hline hpieces h (p := p)
    by_contra hnot
    obtain ⟨w, hne, hw, hchars⟩ := Grep.exists_other_of_spells hpieces ((hspells hspace hline).2 rfl) hnot
    have hfree {c : Char} (hc : c ∉ d.toList) (hx : c ≠ 'x') : c ∉ (String.ofList w).toList := by
      rw [String.toList_ofList]
      exact fun hmem => (hchars c hmem).elim hc hx
    have hsame : String.ofList w = d := (hspells (hfree hspace (by decide)) (hfree hline (by decide))).1 (by simpa using hw)
    exact hne (by rw [← hsame, String.toList_ofList])

/-- A volume whose guard is exact, and one that is given a meaning by an asterisk. -/
theorem swap_guard_exact_iff_of_two_volumes :
    GuardsItself (fun _ => none) "/dev/pool/swap" ∧ ¬ GuardsItself (fun _ => none) "/dev/pool/swap*" :=
  ⟨(swap_guard_exact_iff (by decide) (by decide) (Grep.readFrom_ne_unread (by decide) (by decide) (by decide))).2
    (by decide), fun h => absurd ((swap_guard_exact_iff (by decide) (by decide)
      (Grep.readFrom_ne_unread (by decide) (by decide) (by decide))).1 h) (by decide)⟩

/-- A volume that is not enabled, as another one is in use whose path its pattern has as well. -/
theorem swap_not_enabled_beside_other :
    let tree : Value := .map [entry "lvm_vg" (.map [entry "pool" (.map [entry "lvs" (.map [entry "a.b" (.map [
      entry "size" (.text "1G"), entry "content" (node "swap" [])])])])])]
    let lines := ["/dev/pool/axb partition 1G 0B -2"]
    (∃ c before after, (compile tree "/mnt").outcome = .ok c ∧
        c.mountScript = before ++ (Mounting.swap "/dev/pool/a.b").script ++ after) ∧
      Lists ["/dev/pool/axb"] lines ∧ (Mounting.swap "/dev/pool/a.b").runs? (fun _ => none) lines = some [] ∧
      ¬ GuardsItself (fun _ => none) "/dev/pool/a.b" := by
  intro tree lines
  have hlists : Lists ["/dev/pool/axb"] lines := .cons ⟨"partition 1G 0B -2", by simp⟩ .nil
  have hnothing : (Mounting.swap "/dev/pool/a.b").runs? (fun _ => none) lines = some [] := by
    rw [Mounting.runs?_swap (by decide)]
    decide +kernel
  have hnot : ¬ GuardsItself (fun _ => none) "/dev/pool/a.b" := fun h => by
    obtain ⟨calls, hcalls, hruns⟩ := h ["/dev/pool/axb"] lines (by decide) hlists
    obtain rfl := Option.some.inj (hnothing.symm.trans hcalls)
    exact absurd (hruns.2 (by decide)) List.not_mem_nil
  refine ⟨?_, hlists, hnothing, hnot⟩
  have hchecked : (compile tree "/mnt").outcome.toOption.map (·.mountScript) =
      some ("#!/bin/sh\nset -efu\n\n# activate devices\n" ++
        "vgchange -a y pool\n\n# mount filesystems\n" ++ (Mounting.swap "/dev/pool/a.b").script ++ "") := by decide +kernel
  obtain ⟨c, hc, hscript⟩ := Option.map_eq_some_iff.1 hchecked
  exact ⟨c, _, _, eq_ok_of_toOption hc, hscript⟩

end Provision
