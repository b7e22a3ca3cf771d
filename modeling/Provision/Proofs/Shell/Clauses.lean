import Provision.Proofs.Shell.Commands
/-!
# The clauses of a script

A script is read as clauses (`clauses`): the words of a command, the reserved words before it, and whether the next
clause is the alternative to it.  Redirections are left out.  The reader knows quotes, comments, conditions and
alternatives; it gives no clauses for a script with anything else, such as expansions, pipes, lists in parentheses, or
commands that change the shell itself.  A quoted word is read as it was before it was quoted, so a piece of a script is
read as the same clauses whatever its words are and whatever comes after it (`Reads`).
-/
namespace Provision.Shell

inductive Lexing where
  | outside
  | word
  | single
  | double
  | comment

/-- Whether a character begins a word without quotes.  A word that goes on after a bracket has no second one, so it is no
pattern. -/
def beginsWord (c : Char) : Bool := isPlain c || ['[', ']', '!'].contains c

/-- The tokens from a position on, where `w` is the part of the current word already read, and `bare` says that nothing
of it was quoted.  The number right before a redirection is a part of it.  A character that would be expanded, or a
quote that is not closed, is a sign that no command has. -/
def lexFrom : Lexing → List Char → Bool → List Char → List Token
  | .outside, _, _, [] => []
  | .comment, _, _, [] => []
  | .word, w, bare, [] => [.word w bare]
  | .single, _, _, [] => [.sign '\'']
  | .double, _, _, [] => [.sign '"']
  | .outside, _, _, c :: rest =>
    if isBlank c then lexFrom .outside [] true rest
    else if c = '#' then lexFrom .comment [] true rest
    else if c = '\'' then lexFrom .single [] false rest
    else if c = '"' then lexFrom .double [] false rest
    else if beginsWord c then lexFrom .word [c] true rest
    else .sign c :: lexFrom .outside [] true rest
  | .word, w, bare, c :: rest =>
    if isBlank c then .word w bare :: lexFrom .outside [] true rest
    else if c = '\'' then lexFrom .single w false rest
    else if c = '"' then lexFrom .double w false rest
    else if isPlain c then lexFrom .word (w ++ [c]) bare rest
    else if (c == '<' || c == '>') && bare && w.all Char.isDigit then .sign c :: lexFrom .outside [] true rest
    else .word w bare :: .sign c :: lexFrom .outside [] true rest
  | .single, w, bare, c :: rest => if c = '\'' then lexFrom .word w bare rest else lexFrom .single (w ++ [c]) bare rest
  | .double, w, bare, c :: rest =>
    if c = '"' then lexFrom .word w bare rest
    else if ['$', '`', '\\'].contains c then .sign c :: lexFrom .double w bare rest
    else lexFrom .double (w ++ [c]) bare rest
  | .comment, w, bare, c :: rest =>
    if c = '\n' then .sign c :: lexFrom .outside [] true rest else lexFrom .comment w bare rest

def lex (s : List Char) : List Token := lexFrom .outside [] true s

structure Clause where
  /-- The reserved words before the command. -/
  opens : List String := []
  words : List String := []
  /-- Whether the next clause is the alternative to this one, which runs where this one fails. -/
  orElse : Bool := false
  deriving DecidableEq, Repr

def openings : List String := ["if", "!", "then", "fi"]

/-- The words that are not read in the place of a command: those of other compound commands, and the commands that change the
shell itself. -/
def unread : List String :=
  [":", ".", "alias", "bg", "break", "case", "cd", "command", "continue", "eval", "exec", "exit", "export", "fg", "for",
   "function", "getopts", "in", "read", "readonly", "return", "shift", "time", "times", "trap", "umask", "unalias",
   "unset", "wait"]

/-- Whether a word in the place of a command is one that is read: it calls a program, or sets options of the shell. -/
def isCommand (w : List Char) (bare : Bool) : Bool := !unread.any (·.toList == w) && !(bare && isBefore w)

def Clause.ended (c : Clause) : List Clause := if c.opens.isEmpty && c.words.isEmpty then [] else [c]

/-- The clauses of tokens, where `c` is the part of the current clause already read, and `target` says that the next word is
the file of a redirection. -/
def clausesFrom : Bool → Clause → List Token → Option (List Clause)
  | target, c, [] => if target then none else some c.ended
  | target, c, .word w bare :: ts =>
    if target then clausesFrom false c ts
    else if !c.words.isEmpty || isCommand w bare then clausesFrom false { c with words := c.words ++ [String.ofList w] } ts
    else if bare && openings.any (·.toList == w) then clausesFrom false { c with opens := c.opens ++ [String.ofList w] } ts
    else none
  | target, c, .sign s :: ts =>
    if s = '>' then clausesFrom true c ts
    else if target then if s = '&' then clausesFrom true c ts else none
    else if s = '<' then clausesFrom true c ts
    else if s = '\n' ∨ s = ';' then (c.ended ++ ·) <$> clausesFrom false {} ts
    else match s, ts with
      | '|', .sign '|' :: ts => ({ c with orElse := true } :: ·) <$> clausesFrom false {} ts
      | _, _ => none

/-- **The clauses of a script**, if all of it is read. -/
def clauses (script : String) : Option (List Clause) := clausesFrom false {} (lex script.toList)

example : clauses "if ! findmnt 'a b' >/dev/null 2>&1; then # once\n  mount 'a b' /c\nfi\nzpool list 2 || zpool import 2\n" =
    some [{ opens := ["if", "!"], words := ["findmnt", "a b"] }, { opens := ["then"] },
      { words := ["mount", "a b", "/c"] }, { opens := ["fi"] },
      { words := ["zpool", "list", "2"], orElse := true }, { words := ["zpool", "import", "2"] }] := by
  rw [clauses, String.toList_ofList]
  decide +kernel

/-- Whether a text ends the word before it, so that it is none of the numbers of a redirection. -/
def ClosesWord (s : List Char) : Prop := s.head?.any (fun c => isBlank c || c == '\n' || c == ';') = true

instance (s : List Char) : Decidable (ClosesWord s) := inferInstanceAs (Decidable (_ = true))

theorem ClosesWord.append {s : List Char} (h : ClosesWord s) (rest : List Char) : ClosesWord (s ++ rest) := by
  cases s with
  | nil => cases h
  | cons c s => exact h

theorem ClosesWord.append_toList {s : String} (h : ClosesWord s.toList) (t : String) : ClosesWord (s ++ t).toList := by
  rw [String.toList_append]
  exact h.append _

theorem readsQuotes_lexFrom : ReadsQuotes (lexFrom .word) (lexFrom .single) (lexFrom .double) where
  plain hc u bare rest := by
    obtain ⟨hblank, -, -, -, hsingle, hdouble⟩ := plain_stands_for_itself hc
    rw [lexFrom, hblank, hc]
    simp only [Bool.false_eq_true, if_false, if_neg hsingle, if_neg hdouble, if_true]
  openSingle _ _ _ := rfl
  openDouble _ _ _ := rfl
  inSingle hc u bare rest := by rw [lexFrom, if_neg hc]
  closeSingle _ _ _ := rfl
  quoteInDouble _ _ _ := rfl
  closeDouble _ _ _ := rfl

theorem lex_quoteChars (w rest : List Char) : lex (quoteChars w ++ rest) = lexFrom .word [] true (quoteChars w ++ rest) := by
  unfold quoteChars
  split
  · rfl
  · split
    · rename_i hne hplain
      obtain ⟨c, w, rfl⟩ := List.exists_cons_of_ne_nil hne
      have hc := List.all_eq_true.1 hplain c List.mem_cons_self
      obtain ⟨hblank, -, hcomment, -, hsingle, hdouble⟩ := plain_stands_for_itself hc
      have hbegins : beginsWord c = true := by rw [beginsWord, hc, Bool.true_or]
      rw [lex, List.cons_append, lexFrom, lexFrom, hblank, hbegins, hc]
      simp only [Bool.false_eq_true, if_false, if_neg hcomment, if_neg hsingle, if_neg hdouble, if_true, List.nil_append]
    · rfl

theorem lexFrom_word_of_closesWord {rest : List Char} (h : ClosesWord rest) (w : List Char) (bare : Bool) :
    lexFrom .word w bare rest = .word w bare :: lex rest := by
  cases rest with
  | nil => cases h
  | cons c rest =>
    have hc : c = ' ' ∨ c = '\t' ∨ c = '\n' ∨ c = ';' := by
      simpa [ClosesWord, isBlank, or_assoc] using h
    rcases hc with rfl | rfl | rfl | rfl <;> rfl

/-- **A quoted word is read as the word itself.** -/
theorem lex_quote {rest : List Char} (h : ClosesWord rest) (w : List Char) :
    lex (quoteChars w ++ rest) = .word w (isBare w) :: lex rest := by
  rw [lex_quoteChars, readsQuotes_lexFrom.quotedWord, List.nil_append, Bool.true_and, lexFrom_word_of_closesWord h]

/-- **A command line is read as its words.** -/
theorem lex_commandLine {rest : List Char} (h : ClosesWord rest) : ∀ ws : List String, ws ≠ [] →
    lex ((commandLine ws).toList ++ rest) = wordTokens ws ++ lex rest
  | [w], _ => by
    rw [toList_commandLine_singleton, lex_quote h]
    rfl
  | w :: v :: ws, _ => by
    rw [toList_commandLine_cons, List.append_assoc, List.cons_append, lex_quote (show ClosesWord (' ' :: _) from rfl)]
    exact congrArg (_ :: ·) (lex_commandLine h (v :: ws) (List.cons_ne_nil _ _))

def bareWord (w : String) : Token := .word w.toList true

theorem clausesFrom_word {opens : List String} {v : String} {vs : List String} (w : List Char) (bare : Bool)
    (ts : List Token) :
    clausesFrom false { opens := opens, words := v :: vs } (.word w bare :: ts) =
      clausesFrom false { opens := opens, words := v :: (vs ++ [String.ofList w]) } ts := by
  rw [clausesFrom]
  rfl

theorem clausesFrom_wordTokens {opens : List String} {v : String} (ts : List Token) : ∀ vs ws : List String,
    clausesFrom false { opens := opens, words := v :: vs } (wordTokens ws ++ ts) =
      clausesFrom false { opens := opens, words := v :: (vs ++ ws) } ts
  | vs, [] => by rw [List.append_nil]; rfl
  | vs, w :: ws => by
    rw [wordTokens, List.map_cons, List.cons_append, clausesFrom_word, String.ofList_toList,
      ← List.singleton_append (l := ws), ← List.append_assoc, ← clausesFrom_wordTokens ts (vs ++ [w]) ws, wordTokens]

/-- **What a piece of a script is read as**: after the part `c` of a clause, the clauses `cs` and the part `d` of another,
whatever comes there. -/
def Reads (c : Clause) (text : String) (cs : List Clause) (d : Clause) : Prop :=
  ∀ rest, clausesFrom false c (lex (text.toList ++ rest)) = (clausesFrom false d (lex rest)).map (cs ++ ·)

namespace Reads

variable {b c d : Clause} {s t : String} {bs cs : List Clause}

theorem empty : Reads c "" [] c := fun rest => by
  have hrest : "".toList ++ rest = rest := rfl
  rw [hrest]
  exact Option.map_id'.symm

theorem append (hs : Reads b s bs c) (ht : Reads c t cs d) : Reads b (s ++ t) (bs ++ cs) d := by
  intro rest
  rw [String.toList_append, List.append_assoc, hs, ht, Option.map_map]
  simp only [Function.comp_def, List.append_assoc]

theorem join {α : Type} {text : α → String} {read : α → List Clause} : ∀ {xs : List α},
    (∀ x ∈ xs, Reads {} (text x) (read x) {}) → Reads {} (String.join (xs.map text)) (xs.flatMap read) {}
  | [], _ => empty
  | x :: xs, h => by
    rw [List.map_cons, String.join_cons, List.flatMap_cons]
    exact (h x List.mem_cons_self).append (join (fun y hy => h y (List.mem_cons_of_mem _ hy)))

/-- A text that is written out, with the same tokens whatever comes after it. -/
theorem of_tokens {text : List Char} (ht : t = String.ofList text) (ts : List Token)
    (hlex : ∀ rest, lex (text ++ rest) = ts ++ lex rest)
    (hread : ∀ us, clausesFrom false c (ts ++ us) = (clausesFrom false d us).map (cs ++ ·)) : Reads c t cs d := by
  intro rest
  rw [ht, String.toList_ofList, hlex, hread]

theorem quote {opens : List String} {v : String} {vs : List String} (w : String)
    (ht : Reads { opens := opens, words := v :: (vs ++ [w]) } t cs d) (hend : ClosesWord t.toList) :
    Reads { opens := opens, words := v :: vs } (Shell.quote w ++ t) cs d := by
  intro rest
  have htext : (Shell.quote w ++ t).toList ++ rest = quoteChars w.toList ++ (t.toList ++ rest) := by simp [Shell.quote]
  rw [htext, lex_quote (hend.append rest), clausesFrom_word, String.ofList_toList, ht rest]

theorem commandLine {opens : List String} {w : String} {ws : List String} (hw : isCommand w.toList (isBare w.toList) = true)
    (ht : Reads { opens := opens, words := w :: ws } t cs d) (hend : ClosesWord t.toList) :
    Reads { opens := opens } (Shell.commandLine (w :: ws) ++ t) cs d := by
  intro rest
  rw [String.toList_append, List.append_assoc, lex_commandLine (hend.append rest) _ (List.cons_ne_nil _ _), wordTokens,
    List.map_cons, List.cons_append, clausesFrom]
  simp only [Bool.false_eq_true, if_false, hw, Bool.or_true, if_true, List.nil_append, String.ofList_toList]
  exact (clausesFrom_wordTokens _ [] ws).trans (ht rest)

theorem commandLine_end {w : String} {ws : List String} (hw : isCommand w.toList (isBare w.toList) = true) :
    Reads {} (Shell.commandLine (w :: ws) ++ "\n") [{ words := w :: ws }] {} :=
  commandLine hw (.of_tokens rfl [.sign '\n'] (fun _ => rfl) (fun _ => by simp [clausesFrom, Clause.ended])) rfl

theorem clauses (h : Reads {} s cs {}) : Shell.clauses s = some cs := by
  have hs := h []
  rw [List.append_nil] at hs
  rw [Shell.clauses, hs]
  simp [lex, lexFrom, clausesFrom, Clause.ended]

end Reads

end Provision.Shell
