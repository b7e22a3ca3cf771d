import Provision.Shell.Quote
import Provision.Shell.Words
/-!
# The commands that a script calls

A shell reads a script as words and signs; the first word of a command is the program that it calls (`commandWords`).  This
follows the language as far as it goes without loops, functions and documents: quotes, comments, redirections, assignments
of what is not quoted, lists in parentheses, and the words of a condition.  A quoted word is read as it was before it was
quoted (`tokens_quote`), so a piece of a script calls the same programs whatever its words are and whatever comes after it
(`Calls`).
-/
namespace Provision.Shell

/-- A part of a script: a word, and whether nothing of it is quoted, or a sign between words. -/
inductive Token where
  | word (chars : List Char) (bare : Bool)
  | sign (c : Char)
  deriving DecidableEq, Repr

def isBlank (c : Char) : Bool := c == ' ' || c == '\t'

def isSign (c : Char) : Bool := ['\n', ';', '&', '|', '(', ')', '<', '>'].contains c

/-- Where the reader of a script stands. -/
inductive Reading where
  /-- In a comment, which ends with its line. -/
  | comment
  | text (position : Position)

/-- The tokens from a position on, where `w` is the part of the current word already read, and `bare` says that nothing of it
was quoted. -/
def tokensFrom : Reading → List Char → Bool → List Char → List Token
  | .comment, _, _, [] => []
  | .text .outside, _, _, [] => []
  | .text _, w, bare, [] => [.word w bare]
  | .comment, w, bare, c :: rest =>
    if c = '\n' then .sign c :: tokensFrom (.text .outside) [] true rest else tokensFrom .comment w bare rest
  | .text .outside, _, _, c :: rest =>
    if isBlank c then tokensFrom (.text .outside) [] true rest
    else if isSign c then .sign c :: tokensFrom (.text .outside) [] true rest
    else if c = '#' then tokensFrom .comment [] true rest
    else if c = '\\' then tokensFrom (.text .escape) [] false rest
    else if c = '\'' then tokensFrom (.text .single) [] false rest
    else if c = '"' then tokensFrom (.text .double) [] false rest
    else tokensFrom (.text .word) [c] true rest
  | .text .word, w, bare, c :: rest =>
    if isBlank c then .word w bare :: tokensFrom (.text .outside) [] true rest
    else if isSign c then .word w bare :: .sign c :: tokensFrom (.text .outside) [] true rest
    else if c = '\\' then tokensFrom (.text .escape) w false rest
    else if c = '\'' then tokensFrom (.text .single) w false rest
    else if c = '"' then tokensFrom (.text .double) w false rest
    else tokensFrom (.text .word) (w ++ [c]) bare rest
  | .text .single, w, bare, c :: rest =>
    if c = '\'' then tokensFrom (.text .word) w bare rest else tokensFrom (.text .single) (w ++ [c]) bare rest
  | .text .double, w, bare, c :: rest =>
    if c = '"' then tokensFrom (.text .word) w bare rest
    else if c = '\\' then tokensFrom (.text .doubleEscape) w bare rest
    else tokensFrom (.text .double) (w ++ [c]) bare rest
  | .text .escape, w, bare, c :: rest => tokensFrom (.text .word) (w ++ [c]) bare rest
  | .text .doubleEscape, w, bare, c :: rest =>
    if c = '"' ∨ c = '\\' then tokensFrom (.text .double) (w ++ [c]) bare rest
    else tokensFrom (.text .double) (w ++ ['\\', c]) bare rest

def tokens (s : List Char) : List Token := tokensFrom (.text .outside) [] true s

/-- What the next word is. -/
inductive Role where
  /-- The program that a command calls. -/
  | program
  | argument
  /-- The file of a redirection; behind it the command goes on. -/
  | target (rest : Role)

/-- The words that begin, divide or end a compound command, or negate one. -/
def reserved : List String :=
  ["!", "\x7b", "\x7d", "if", "then", "elif", "else", "fi", "while", "until", "do", "done"]

def isNameChar (c : Char) : Bool := c.isAlphanum || c == '_'

/-- Whether a word sets a variable: a name, then an equals sign. -/
def isAssignment (w : List Char) : Bool :=
  w.head?.any (fun c => isNameChar c && !c.isDigit) && (w.dropWhile isNameChar).head? == some '='

/-- Whether a word in the place of a program is none, so that the program comes after it. -/
def isBefore (w : List Char) : Bool := reserved.any (·.toList == w) || isAssignment w

def programsFrom : Role → List Token → List (List Char)
  | _, [] => []
  | .program, .word w bare :: ts => if bare && isBefore w then programsFrom .program ts else w :: programsFrom .argument ts
  | .argument, .word _ _ :: ts => programsFrom .argument ts
  | .target rest, .word _ _ :: ts => programsFrom rest ts
  | role, .sign c :: ts =>
    if c = '<' ∨ c = '>' then programsFrom (.target role) ts
    -- the sign after that of a redirection belongs to it
    else if c = '&' then
      match role with
      | .target _ => programsFrom role ts
      | _ => programsFrom .program ts
    else if c = ')' then programsFrom .argument ts
    else programsFrom .program ts

/-- **The words of a script that are the programs of its commands**, in its order. -/
def commandWords (script : String) : List String := (programsFrom .program (tokens script.toList)).map String.ofList

example :
    commandWords "dir=$(mktemp -d) # scratch\nif ! swapon --show | grep -q '^a b' >/dev/null; then\n  'swap'on x\nfi" =
      ["mktemp", "swapon", "grep", "swapon"] := by
  rw [commandWords, String.toList_ofList]
  decide +kernel

def EndsWord (s : List Char) : Prop := s.head?.any (fun c => isBlank c || isSign c) = true

instance (s : List Char) : Decidable (EndsWord s) := inferInstanceAs (Decidable (_ = true))

theorem EndsWord.append {s : List Char} (h : EndsWord s) (rest : List Char) : EndsWord (s ++ rest) := by
  cases s with
  | nil => cases h
  | cons c s => exact h

theorem EndsWord.append_toList {s : String} (h : EndsWord s.toList) (t : String) : EndsWord (s ++ t).toList := by
  rw [String.toList_append]
  exact h.append _

def isBare (w : List Char) : Bool := !w.isEmpty && w.all isPlain

theorem plain_stands_for_itself {c : Char} (h : isPlain c = true) :
    isBlank c = false ∧ isSign c = false ∧ c ≠ '#' ∧ c ≠ '\\' ∧ c ≠ '\'' ∧ c ≠ '"' := by
  have hne (d : Char) (hd : isPlain d = false) : c ≠ d := by
    rintro rfl
    rw [h] at hd
    cases hd
  refine ⟨?_, ?_, hne _ (by decide), hne _ (by decide), hne _ (by decide), hne _ (by decide)⟩
  · simp [isBlank, hne ' ' (by decide), hne '\t' (by decide)]
  · simp [isSign, hne '\n' (by decide), hne ';' (by decide), hne '&' (by decide), hne '|' (by decide), hne '(' (by decide),
      hne ')' (by decide), hne '<' (by decide), hne '>' (by decide)]

/-- **How a quoted word is read**: what becomes of the part of a word already read, outside quotes, between single and
between double ones. -/
structure ReadsQuotes {β : Type} (word single double : List Char → Bool → List Char → β) : Prop where
  plain : ∀ {c}, isPlain c = true → ∀ u bare rest, word u bare (c :: rest) = word (u ++ [c]) bare rest
  openSingle : ∀ u bare rest, word u bare ('\'' :: rest) = single u false rest
  openDouble : ∀ u bare rest, word u bare ('"' :: rest) = double u false rest
  inSingle : ∀ {c}, c ≠ '\'' → ∀ u bare rest, single u bare (c :: rest) = single (u ++ [c]) bare rest
  closeSingle : ∀ u bare rest, single u bare ('\'' :: rest) = word u bare rest
  quoteInDouble : ∀ u bare rest, double u bare ('\'' :: rest) = double (u ++ ['\'']) bare rest
  closeDouble : ∀ u bare rest, double u bare ('"' :: rest) = word u bare rest

namespace ReadsQuotes

variable {β : Type} {word single double : List Char → Bool → List Char → β} (h : ReadsQuotes word single double)
include h

theorem plainWord : ∀ {w : List Char}, (∀ c ∈ w, isPlain c = true) → ∀ (u : List Char) (bare : Bool) (rest : List Char),
    word u bare (w ++ rest) = word (u ++ w) bare rest
  | [], _, u, bare, rest => by rw [List.nil_append, List.append_nil]
  | c :: w, hplain, u, bare, rest => by
    obtain ⟨hc, hw⟩ := List.forall_mem_cons.1 hplain
    rw [List.cons_append, h.plain hc, plainWord hw, List.append_assoc, List.singleton_append]

/-- Between single quotes a word is read as it was before it was escaped. -/
theorem escapedWord : ∀ (w u rest : List Char), single u false (escapeQuotes w ++ '\'' :: rest) = word (u ++ w) false rest
  | [], u, rest => by rw [escapeQuotes, List.nil_append, List.append_nil, h.closeSingle]
  | c :: w, u, rest => by
    have ih := escapedWord w (u ++ [c]) rest
    rw [List.append_assoc, List.singleton_append] at ih
    by_cases hc : c = '\''
    · -- out of the quotes, the quote between double ones, and back
      subst hc
      rw [escapeQuotes, ← ih]
      simp only [List.cons_append, h.closeSingle, h.openDouble, h.quoteInDouble, h.closeDouble, h.openSingle]
    · rw [escapeQuotes.eq_3 c w hc, List.cons_append, h.inSingle hc, ih]

/-- **A quoted word goes on as the word itself.** -/
theorem quotedWord (w u : List Char) (bare : Bool) (rest : List Char) :
    word u bare (quoteChars w ++ rest) = word (u ++ w) (bare && isBare w) rest := by
  unfold quoteChars isBare
  split
  · rename_i hw
    subst hw
    simp only [List.isEmpty_nil, Bool.not_true, Bool.false_and, Bool.and_false, List.append_nil, List.cons_append,
      List.nil_append, h.openSingle, h.closeSingle]
  · rename_i hne
    rw [List.isEmpty_eq_false_iff.2 hne, Bool.not_false, Bool.true_and]
    split
    · rename_i hplain
      rw [hplain, Bool.and_true, h.plainWord (List.all_eq_true.1 hplain)]
    · rename_i hplain
      rw [Bool.not_eq_true] at hplain
      rw [hplain, Bool.and_false, List.cons_append, List.cons_append, List.append_assoc, List.singleton_append,
        ← h.escapedWord w u rest, h.openSingle]

end ReadsQuotes

theorem readsQuotes_tokensFrom :
    ReadsQuotes (tokensFrom (.text .word)) (tokensFrom (.text .single)) (tokensFrom (.text .double)) where
  plain hc u bare rest := by
    obtain ⟨hblank, hsign, -, hbackslash, hsingle, hdouble⟩ := plain_stands_for_itself hc
    rw [tokensFrom, hblank, hsign]
    simp only [Bool.false_eq_true, if_false, if_neg hbackslash, if_neg hsingle, if_neg hdouble]
  openSingle _ _ _ := rfl
  openDouble _ _ _ := rfl
  inSingle hc u bare rest := by rw [tokensFrom, if_neg hc]
  closeSingle _ _ _ := rfl
  quoteInDouble _ _ _ := rfl
  closeDouble _ _ _ := rfl

theorem tokensFrom_word_quote (w u : List Char) (bare : Bool) (rest : List Char) :
    tokensFrom (.text .word) u bare (quoteChars w ++ rest) = tokensFrom (.text .word) (u ++ w) (bare && isBare w) rest :=
  readsQuotes_tokensFrom.quotedWord w u bare rest

theorem tokens_quoteChars (w rest : List Char) :
    tokens (quoteChars w ++ rest) = tokensFrom (.text .word) [] true (quoteChars w ++ rest) := by
  unfold quoteChars
  split
  · rfl
  · split
    · rename_i hne hplain
      obtain ⟨c, w, rfl⟩ := List.exists_cons_of_ne_nil hne
      obtain ⟨hblank, hsign, hcomment, hbackslash, hsingle, hdouble⟩ :=
        plain_stands_for_itself (List.all_eq_true.1 hplain c List.mem_cons_self)
      rw [tokens, List.cons_append, tokensFrom, tokensFrom, hblank, hsign]
      simp only [Bool.false_eq_true, if_false, if_neg hcomment, if_neg hbackslash, if_neg hsingle, if_neg hdouble]
      rfl
    · rfl

theorem tokensFrom_word_of_endsWord {rest : List Char} (h : EndsWord rest) (w : List Char) (bare : Bool) :
    tokensFrom (.text .word) w bare rest = .word w bare :: tokens rest := by
  cases rest with
  | nil => cases h
  | cons c rest =>
    rw [tokens, tokensFrom, tokensFrom]
    cases hblank : isBlank c with
    | true => rfl
    | false =>
      have hsign : isSign c = true := by simpa [EndsWord, hblank] using h
      rw [hsign]
      rfl

/-- **A quoted word is read as the word itself.** -/
theorem tokens_quote {rest : List Char} (h : EndsWord rest) (w : List Char) :
    tokens (quoteChars w ++ rest) = .word w (isBare w) :: tokens rest := by
  rw [tokens_quoteChars, tokensFrom_word_quote, List.nil_append, Bool.true_and, tokensFrom_word_of_endsWord h]

theorem toList_commandLine_singleton (w : String) : (commandLine [w]).toList = quoteChars w.toList := by
  simp [commandLine, quote]

theorem toList_commandLine_cons (w v : String) (ws : List String) :
    (commandLine (w :: v :: ws)).toList = quoteChars w.toList ++ ' ' :: (commandLine (v :: ws)).toList := by
  simp [commandLine, quote, String.toList_intercalate]

def wordTokens (ws : List String) : List Token := ws.map (fun w => .word w.toList (isBare w.toList))

/-- **A command line is read as its words.** -/
theorem tokens_commandLine {rest : List Char} (h : EndsWord rest) : ∀ ws : List String, ws ≠ [] →
    tokens ((commandLine ws).toList ++ rest) = wordTokens ws ++ tokens rest
  | [w], _ => by
    rw [toList_commandLine_singleton, tokens_quote h]
    rfl
  | w :: v :: ws, _ => by
    rw [toList_commandLine_cons, List.append_assoc, List.cons_append, tokens_quote (show EndsWord (' ' :: _) from rfl)]
    exact congrArg (_ :: ·) (tokens_commandLine h (v :: ws) (List.cons_ne_nil _ _))

theorem programsFrom_argument_wordTokens (ws : List String) (ts : List Token) :
    programsFrom .argument (wordTokens ws ++ ts) = programsFrom .argument ts := by
  induction ws with
  | nil => rfl
  | cons w ws ih => exact ih

theorem programsFrom_argument_quote (u : List Char) (bare : Bool) (w : List Char) {rest : List Char} (h : EndsWord rest) :
    programsFrom .argument (tokensFrom (.text .word) u bare (quoteChars w ++ rest)) =
      programsFrom .argument (tokens rest) := by
  rw [tokensFrom_word_quote, tokensFrom_word_of_endsWord h]
  rfl

theorem programsFrom_wordTokens {w : String} (hw : isBefore w.toList = false) (ws : List String) (ts : List Token) :
    programsFrom .program (wordTokens (w :: ws) ++ ts) = w.toList :: programsFrom .argument ts := by
  have hprogram : (isBare w.toList && isBefore w.toList) = false := by rw [hw, Bool.and_false]
  rw [wordTokens, List.map_cons, List.cons_append, programsFrom, hprogram, ← programsFrom_argument_wordTokens ws ts]
  rfl

/-- **What a piece of a script calls**, and what the next word after it is, whatever comes there. -/
def Calls (role : Role) (text : String) (programs : List String) (next : Role) : Prop :=
  ∀ rest, programsFrom role (tokens (text.toList ++ rest)) = programs.map String.toList ++ programsFrom next (tokens rest)

namespace Calls

variable {role next last : Role} {s t : String} {ps qs : List String}

theorem empty : Calls role "" [] role := fun _ => rfl

theorem literal {cs : List Char} (hs : s = String.ofList cs)
    (h : ∀ rest, programsFrom role (tokens (cs ++ rest)) = ps.map String.toList ++ programsFrom next (tokens rest)) :
    Calls role s ps next := fun rest => by
  rw [hs, String.toList_ofList]
  exact h rest

theorem append (hs : Calls role s ps next) (ht : Calls next t qs last) : Calls role (s ++ t) (ps ++ qs) last := by
  intro rest
  rw [String.toList_append, List.append_assoc, hs, ht, List.map_append, List.append_assoc]

theorem join {α : Type} {text : α → String} {programs : α → List String} : ∀ {xs : List α},
    (∀ x ∈ xs, Calls .program (text x) (programs x) .program) →
    Calls .program (String.join (xs.map text)) (xs.flatMap programs) .program
  | [], _ => empty
  | x :: xs, h => by
    rw [List.map_cons, String.join_cons, List.flatMap_cons]
    exact (h x List.mem_cons_self).append (join (fun y hy => h y (List.mem_cons_of_mem _ hy)))

theorem quote (ht : Calls .argument t qs next) (w : String) (hend : EndsWord t.toList) :
    Calls .argument (Shell.quote w ++ t) qs next := by
  intro rest
  have htext : (Shell.quote w ++ t).toList ++ rest = quoteChars w.toList ++ (t.toList ++ rest) := by simp [Shell.quote]
  rw [htext, tokens_quote (hend.append rest), ← ht rest]
  rfl

theorem commandLine {w : String} (hw : isBefore w.toList = false) (ws : List String) (hend : EndsWord t.toList)
    (ht : Calls .argument t qs next) : Calls .program (Shell.commandLine (w :: ws) ++ t) (w :: qs) next := by
  intro rest
  rw [String.toList_append, List.append_assoc, tokens_commandLine (hend.append rest) _ (List.cons_ne_nil _ _),
    programsFrom_wordTokens hw, ht]
  rfl

theorem commandLine_end {w : String} (hw : isBefore w.toList = false) (ws : List String) :
    Calls .program (Shell.commandLine (w :: ws) ++ "\n") [w] .program :=
  commandLine hw ws rfl (literal rfl fun _ => rfl)

theorem comment (h : '\n' ∉ s.toList) : Calls .program ("#" ++ s ++ "\n") [] .program := by
  intro rest
  have hcomment : ∀ {cs : List Char}, '\n' ∉ cs →
      tokensFrom .comment [] true (cs ++ '\n' :: rest) = .sign '\n' :: tokens rest := by
    intro cs hcs
    induction cs with
    | nil => rfl
    | cons c cs ih =>
      rw [List.mem_cons, not_or] at hcs
      rw [List.cons_append, tokensFrom, if_neg (Ne.symm hcs.1), ih hcs.2]
  have htext : ("#" ++ s ++ "\n").toList ++ rest = '#' :: (s.toList ++ '\n' :: rest) := by simp
  have htokens : tokens ('#' :: (s.toList ++ '\n' :: rest)) = .sign '\n' :: tokens rest := hcomment h
  rw [htext, htokens]
  rfl

theorem commandWords (h : Calls .program s ps .program) : Shell.commandWords s = ps := by
  have hs := h []
  rw [List.append_nil] at hs
  rw [Shell.commandWords, hs]
  simp [tokens, tokensFrom, programsFrom]

end Calls

end Provision.Shell
