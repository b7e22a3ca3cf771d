import Provision.Layout.Option
import Provision.Proofs.Shell.Commands
/-!
# Words read back

Arguments can be given as one text, which is split into shell words.  Splitting undoes quoting: a quoted word that is
followed by a separator, or by nothing, is read as the word that was quoted (`splitFrom_quoteChars`), so a command line
splits into its words, whatever characters they are made of (`split_commandLine`).  An argument of a command is a value,
which is left out, is one word, or is a word for each of its items; splitting the command line of some arguments gives
just the words that they spell (`arguments_read_back`).
-/
namespace Provision.Shell

theorem isSeparator_of_isPlain {c : Char} (h : isPlain c = true) : isSeparator c = false := by
  rw [Bool.eq_false_iff]
  intro hc
  simp only [isSeparator, Bool.or_eq_true, beq_iff_eq, or_assoc] at hc
  rcases hc with rfl | rfl | rfl | rfl <;> revert h <;> decide

theorem readsQuotes_splitFrom : ReadsQuotes (fun w _ => splitFrom .word w) (fun w _ => splitFrom .single w)
    (fun w _ => splitFrom .double w) where
  plain hc u _ rest := by
    obtain ⟨-, -, -, hbackslash, hsingle, hdouble⟩ := plain_stands_for_itself hc
    rw [splitFrom, isSeparator_of_isPlain hc]
    simp only [Bool.false_eq_true, if_false, if_neg hbackslash, if_neg hsingle, if_neg hdouble]
  openSingle _ _ _ := rfl
  openDouble _ _ _ := rfl
  inSingle hc u _ rest := by rw [splitFrom, if_neg hc]
  closeSingle _ _ _ := rfl
  quoteInDouble _ _ _ := rfl
  closeDouble _ _ _ := rfl

theorem splitFrom_outside_cons {c : Char} (h : isSeparator c = false) (s : List Char) :
    splitFrom .outside [] (c :: s) = splitFrom .word [] (c :: s) := by
  rw [splitFrom, splitFrom, h]
  simp only [Bool.false_eq_true, if_false, List.nil_append]

theorem exists_quoteChars_eq_cons (w : List Char) : ∃ c cs, quoteChars w = c :: cs ∧ isSeparator c = false := by
  unfold quoteChars
  split
  · exact ⟨_, _, rfl, by decide⟩
  split
  · rename_i hne hplain
    obtain ⟨c, w, rfl⟩ := List.exists_cons_of_ne_nil hne
    exact ⟨c, w, rfl, isSeparator_of_isPlain (List.all_eq_true.1 hplain c List.mem_cons_self)⟩
  · exact ⟨_, _, rfl, by decide⟩

/-- Whether a text that comes after a word ends it. -/
def EndsArgument (s : List Char) : Prop := ∀ c ∈ s.head?, isSeparator c = true

theorem splitFrom_word_of_endsArgument {rest : List Char} (h : EndsArgument rest) (w : List Char) :
    splitFrom .word w rest = (w :: ·) <$> splitFrom .outside [] rest := by
  cases rest with
  | nil => rfl
  | cons c rest =>
    rw [splitFrom, splitFrom, h c rfl]
    rfl

/-- **A quoted word is read as the word itself.** -/
theorem splitFrom_quoteChars {rest : List Char} (h : EndsArgument rest) (w : List Char) :
    splitFrom .outside [] (quoteChars w ++ rest) = (w :: ·) <$> splitFrom .outside [] rest := by
  have hword : splitFrom .outside [] (quoteChars w ++ rest) = splitFrom .word [] (quoteChars w ++ rest) := by
    obtain ⟨c, cs, hc, hsep⟩ := exists_quoteChars_eq_cons w
    rw [hc, List.cons_append, splitFrom_outside_cons hsep]
  have hquoted := readsQuotes_splitFrom.quotedWord w [] true rest
  rw [List.nil_append] at hquoted
  rw [hword, hquoted, splitFrom_word_of_endsArgument h]

theorem splitFrom_commandLine : ∀ ws : List String,
    splitFrom .outside [] (commandLine ws).toList = .ok (ws.map String.toList)
  | [] => rfl
  | [w] => by
    have hend : EndsArgument [] := fun c hc => by cases hc
    have hquoted := splitFrom_quoteChars hend w.toList
    rw [List.append_nil] at hquoted
    rw [toList_commandLine_singleton, hquoted]
    rfl
  | w :: v :: ws => by
    have hend (s : List Char) : EndsArgument (' ' :: s) := fun c hc => by cases hc; rfl
    have hspace (s : List Char) : splitFrom .outside [] (' ' :: s) = splitFrom .outside [] s := rfl
    rw [toList_commandLine_cons, splitFrom_quoteChars (hend _), hspace, splitFrom_commandLine (v :: ws)]
    rfl

/-- **A command line splits into its words.** -/
theorem split_commandLine (ws : List String) : split (commandLine ws) = .ok ws := by
  rw [split, splitFrom_commandLine, Except.map, List.map_map]
  congr 1
  exact List.map_id'' (fun w => String.ofList_toList) ws

example : commandLine ["", "it's", "b\nc", "d"] = "'' 'it'\"'\"'s' 'b\nc' d" := by decide +kernel

end Provision.Shell

namespace Provision

/-- **The words that arguments spell**: one that is null is left out, a list has a word for each of its items, null ones
included, and any other value is one word. -/
inductive Spells : List Value → List String → Prop
  | nil : Spells [] []
  | null {vs : List Value} {ws : List String} (rest : Spells vs ws) : Spells (.null :: vs) ws
  | list {vs : List Value} {ws : List String} (items : List Value) (rest : Spells vs ws) :
    Spells (.list items :: vs) (items.map Value.toText ++ ws)
  | pair {vs : List Value} {ws : List String} (k v : Value) (rest : Spells vs ws) :
    Spells (.pair k v :: vs) (k.toText :: v.toText :: ws)
  | one {vs : List Value} {ws : List String} {v : Value} (hnull : v ≠ .null) (hlist : ∀ items, v ≠ .list items)
      (hpair : ∀ k w, v ≠ .pair k w) (rest : Spells vs ws) : Spells (v :: vs) (v.toText :: ws)

theorem spells_iff {args : List Value} {ws : List String} : Spells args ws ↔ args.flatMap Value.words = ws := by
  constructor
  · intro h
    induction h with
    | nil => rfl
    | null _ ih | list _ _ ih | pair _ _ _ ih =>
      rw [List.flatMap_cons, ih]
      rfl
    | @one _ _ v hnull hlist hpair _ ih =>
      have hwords : v.words = [v.toText] := by
        cases v
        case null => exact absurd rfl hnull
        case list items => exact absurd rfl (hlist items)
        case pair k w => exact absurd rfl (hpair k w)
        all_goals rfl
      rw [List.flatMap_cons, ih, hwords]
      rfl
  · rintro rfl
    induction args with
    | nil => exact .nil
    | cons v vs ih =>
      cases v
      case null => exact .null ih
      case list items => exact .list items ih
      case pair k w => exact .pair k w ih
      all_goals exact .one (by simp) (by simp) (by simp) ih

/-- **Shell words survive the way through a text.**  Arguments that are given as the command line of some words are
these words, whatever they hold; and the command line of some values splits into the words that the values spell, in
their order. -/
theorem arguments_read_back (place : String) :
    (∀ ws : List String, Declared.argumentsOf place (.text (Shell.commandLine ws)) = .ok ws) ∧
      ∀ (args : List Value) (ws : List String),
        Declared.argumentsOf place (.text (Shell.commandLine (args.flatMap Value.words))) = .ok ws ↔ Spells args ws := by
  have hread (ws : List String) : Declared.argumentsOf place (.text (Shell.commandLine ws)) = .ok ws := by
    rw [Declared.argumentsOf, Shell.split_commandLine]
    rfl
  refine ⟨hread, fun args ws => ?_⟩
  rw [hread, spells_iff, Except.ok.injEq]

end Provision
