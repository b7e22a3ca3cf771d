import Mathlib.Data.List.Basic
import Provision.Host.Table
import Provision.Text.Blank
/-!
# Reading the tables of the host

A table is read line by line: a line that begins with the sign of a comment is skipped, the others are entries, of which
spaces and tabs separate the fields; in a field four codes stand for characters that could not be written in it
(`entries`).  Of a text no more is read than its characters that separate nothing (`length_entriesOf_le`).  So a table
that is read back has no separator in its fields, and then nothing else either that would be read as something else
(`entries_table_iff`).
-/
namespace Provision

namespace Text

variable {α : Type} {p : α → Bool}

theorem runs_cons_of_separator {c : α} (h : p c = true) (s : List α) : runs p (c :: s) = runs p s := by
  rw [runs.eq_def]
  exact if_pos h

theorem runs_append {c : α} {w : List α} (h : ∀ d ∈ c :: w, p d = false) {rest : List α}
    (hrest : ∀ d ∈ rest.head?, p d = true) : runs p (c :: w ++ rest) = (c :: w) :: runs p rest := by
  have hc : ¬ p c = true := by simp [h c List.mem_cons_self]
  induction w generalizing c with
  | nil =>
    rw [List.cons_append, List.nil_append, runs.eq_def]
    dsimp only
    rw [if_neg hc]
    cases rest with
    | nil => rfl
    | cons d rest =>
      dsimp only
      rw [if_pos (hrest d rfl)]
  | cons d w ih =>
    have hd : ¬ p d = true := by simp [h d (by simp)]
    rw [List.cons_append, runs.eq_def]
    dsimp only [List.cons_append]
    rw [if_neg hc, if_neg hd, ← List.cons_append, ih (fun e he => h e (List.mem_cons_of_mem _ he)) hd]

theorem flatten_runs (s : List α) : (runs p s).flatten = s.filter (fun c => !p c) := by
  fun_induction runs p s <;> simp_all

theorem ne_nil_of_mem_runs {s : List α} : ∀ w ∈ runs p s, w ≠ [] := by
  fun_induction runs p s <;> simp_all

theorem exists_runs_cons {c : α} (h : p c = false) (s : List α) : ∃ w ws, runs p (c :: s) = (c :: w) :: ws := by
  rw [runs.eq_def]
  dsimp only
  rw [if_neg (by simp [h])]
  split
  · exact ⟨[], [], rfl⟩
  · split
    · exact ⟨[], _, rfl⟩
    · split
      · exact ⟨[], [], rfl⟩
      · exact ⟨_, _, rfl⟩

end Text

namespace Table

/-- What separates the fields of a line. -/
def isGap (c : Char) : Bool := c == ' ' || c == '\t'

def isInField (c : Char) : Bool := !isGap c && c != '\n'

theorem isInField_iff {c : Char} : isInField c = true ↔ isGap c = false ∧ c ≠ '\n' := by
  simp [isInField]

/-- A field whose codes for a space, a tab, a line feed and a backslash are decoded. -/
def unescape : List Char → List Char
  | '\\' :: '0' :: '4' :: '0' :: s => ' ' :: unescape s
  | '\\' :: '0' :: '1' :: '1' :: s => '\t' :: unescape s
  | '\\' :: '0' :: '1' :: '2' :: s => '\n' :: unescape s
  | '\\' :: '1' :: '3' :: '4' :: s => '\\' :: unescape s
  | c :: s => c :: unescape s
  | [] => []

/-- The entry that some fields are, unless there are none or they are a comment. -/
def ofFields? : List (List Char) → Option (List (List Char))
  | [] => none
  | f :: fs => if f.head? = some '#' then none else some ((f :: fs).map unescape)

def entryOf? (line : List Char) : Option (List (List Char)) := ofFields? (Text.runs isGap line)

def entriesOf (s : List Char) : List (List (List Char)) := (s.splitOn '\n').filterMap entryOf?

/-- **The entries of a table**, each as its fields. -/
def entries (table : String) : List (List String) := (entriesOf table.toList).map (·.map String.ofList)

example : entries "# a table\n/dev/sda1\t/srv/my\\040data ext4\n\n none\t#x\n" =
    [["/dev/sda1", "/srv/my data", "ext4"], ["none", "#x"]] := by
  rw [entries, String.toList_ofList]
  decide +kernel

/-! ## Codes -/

def codes : List (List Char) := [['\\', '0', '4', '0'], ['\\', '0', '1', '1'], ['\\', '0', '1', '2'], ['\\', '1', '3', '4']]

theorem length_unescape_le (s : List Char) : (unescape s).length ≤ s.length := by
  fun_induction unescape s <;> simp_all <;> omega

theorem unescape_ne_nil {s : List Char} (h : s ≠ []) : unescape s ≠ [] := by
  fun_cases unescape s <;> simp_all

/-- **What holds no code is decoded as itself**, and nothing else is. -/
theorem unescape_eq_self_iff {s : List Char} : unescape s = s ↔ ∀ code ∈ codes, ¬ code <:+: s := by
  fun_induction unescape s with
  | case1 s => exact iff_of_false (by simp) (fun h => h ['\\', '0', '4', '0'] (by decide) ⟨[], s, rfl⟩)
  | case2 s => exact iff_of_false (by simp) (fun h => h ['\\', '0', '1', '1'] (by decide) ⟨[], s, rfl⟩)
  | case3 s => exact iff_of_false (by simp) (fun h => h ['\\', '0', '1', '2'] (by decide) ⟨[], s, rfl⟩)
  | case4 s =>
    -- a backslash stands for its code, so what follows would be as long as before
    refine iff_of_false (fun h => ?_) (fun h => h ['\\', '1', '3', '4'] (by decide) ⟨[], s, rfl⟩)
    have hlength := congrArg List.length (List.cons.inj h).2
    have := length_unescape_le s
    simp only [List.length_cons] at hlength
    omega
  | case5 c s h1 h2 h3 h4 ih =>
    have hhead : ∀ code ∈ codes, ¬ code <+: c :: s := by
      simp only [codes, List.forall_mem_cons, List.not_mem_nil, false_implies, implies_true, and_true]
      refine ⟨?_, ?_, ?_, ?_⟩ <;> rintro ⟨t, ht⟩ <;> obtain ⟨rfl, rfl⟩ := List.cons.inj ht
      · exact h1 t rfl rfl
      · exact h2 t rfl rfl
      · exact h3 t rfl rfl
      · exact h4 t rfl rfl
    rw [List.cons.injEq, and_iff_right rfl, ih]
    refine forall₂_congr fun code hcode => not_congr ?_
    rw [List.infix_cons_iff, or_iff_right (hhead code hcode)]
  | case6 => simp [codes]

/-! ## Lines and fields -/

theorem entriesOf_line {l : List Char} (h : '\n' ∉ l) (rest : List Char) :
    entriesOf (l ++ '\n' :: rest) = (entryOf? l).toList ++ entriesOf rest := by
  have hsplit : (l ++ '\n' :: rest).splitOn '\n' = l :: rest.splitOn '\n' := by
    rw [List.splitOn_eq_splitOnP, List.splitOn_eq_splitOnP]
    refine List.splitOnP_append_cons_of_forall_mem (p := (· == '\n')) (fun c hc => ?_) '\n' (by decide) rest
    rw [beq_eq_false_iff_ne]
    rintro rfl
    exact h hc
  rw [entriesOf, hsplit, List.filterMap_cons]
  cases entryOf? l <;> rfl

/-- **A field that is read as it is written**: it is not empty, it holds no separator and no code. -/
@[mk_iff]
structure IsField (f : List Char) : Prop where
  ne_nil : f ≠ []
  separates : ∀ c ∈ f, c ≠ ' ' ∧ c ≠ '\t' ∧ c ≠ '\n'
  codes : ∀ code ∈ codes, ¬ code <:+: f

/-- **An entry that is read as it is written**: each of its fields is, and it is no comment. -/
@[mk_iff]
structure IsEntry (e : List (List Char)) : Prop where
  fields : ∀ f ∈ e, IsField f
  comment : ∀ f ∈ e.head?, f.head? ≠ some '#'

theorem isField_iff_unescape {f : List Char} :
    IsField f ↔ (f ≠ [] ∧ f.all isInField = true) ∧ unescape f = f := by
  rw [isField_iff, unescape_eq_self_iff]
  simp [isInField, isGap, and_assoc]

instance (f : List Char) : Decidable (IsField f) := decidable_of_iff _ isField_iff_unescape.symm

instance (e : List (List Char)) : Decidable (IsEntry e) := decidable_of_iff _ (isEntry_iff e).symm

def line (e : List (List Char)) : List Char := ['\t'].intercalate e

theorem toList_tableLine (e : List String) : (HostConfig.tableLine e).toList = line (e.map String.toList) ++ ['\n'] := by
  rw [HostConfig.tableLine, String.toList_append, String.toList_intercalate]
  rfl

theorem line_cons_cons (f g : List Char) (e : List (List Char)) : line (f :: g :: e) = f ++ '\t' :: line (g :: e) := by
  simp [line, List.intercalate_cons_cons]

theorem runs_line : ∀ {e : List (List Char)}, (∀ f ∈ e, f ≠ [] ∧ ∀ c ∈ f, isGap c = false) → Text.runs isGap (line e) = e
  | [], _ => rfl
  | [f], h => by
    obtain ⟨hne, hgap⟩ := h f List.mem_cons_self
    obtain ⟨c, f, rfl⟩ := List.exists_cons_of_ne_nil hne
    have hruns : Text.runs isGap (c :: f ++ []) = _ := Text.runs_append hgap (by simp)
    rw [List.append_nil] at hruns
    simpa [line, Text.runs] using hruns
  | f :: g :: e, h => by
    obtain ⟨hne, hgap⟩ := h f List.mem_cons_self
    obtain ⟨c, f, rfl⟩ := List.exists_cons_of_ne_nil hne
    rw [line_cons_cons, Text.runs_append hgap (by simp [isGap]), Text.runs_cons_of_separator (by decide),
      runs_line (List.forall_mem_cons.1 h).2]

theorem ofFields?_eq_some {fs e : List (List Char)} (h : ofFields? fs = some e) : fs.map unescape = e := by
  unfold ofFields? at h
  split at h
  · cases h
  · split at h
    · cases h
    · exact Option.some.inj h

theorem ofFields?_eq_self_iff {e : List (List Char)} (hne : e ≠ []) :
    ofFields? e = some e ↔ (∀ f ∈ e.head?, f.head? ≠ some '#') ∧ ∀ f ∈ e, unescape f = f := by
  obtain ⟨f, fs, rfl⟩ := List.exists_cons_of_ne_nil hne
  have hfields : (f :: fs).map unescape = f :: fs ↔ ∀ g ∈ f :: fs, unescape g = g := by
    have hself := List.map_inj_left (f := unescape) (g := fun g => g) (l := f :: fs)
    rwa [List.map_id'] at hself
  by_cases hf : f.head? = some '#'
  · simp [ofFields?, hf]
  · rw [ofFields?, if_neg hf, Option.some.injEq, hfields]
    simp [hf]

theorem length_entryOf_le {l : List Char} {e : List (List Char)} (h : entryOf? l = some e) :
    e.flatten.length ≤ l.countP (fun c => !isGap c) := by
  have hdecoded (fs : List (List Char)) : (fs.map unescape).flatten.length ≤ fs.flatten.length := by
    induction fs with
    | nil => exact Nat.le_refl _
    | cons f fs ih =>
      have := length_unescape_le f
      simp only [List.map_cons, List.flatten_cons, List.length_append]
      omega
  rw [← ofFields?_eq_some h, List.countP_eq_length_filter, ← Text.flatten_runs]
  exact hdecoded _

theorem flatten_splitOn (s : List Char) : (s.splitOn '\n').flatten = s.filter (· != '\n') := by
  induction s with
  | nil => rfl
  | cons c s ih =>
    rw [List.splitOn_eq_splitOnP] at ih ⊢
    rw [List.splitOnP_cons_eq_if_modifyHead, List.filter_cons, ← ih]
    by_cases hc : c = '\n'
    · simp [hc]
    · obtain ⟨l, ls, hl⟩ := List.exists_cons_of_ne_nil (List.splitOnP_ne_nil (· == '\n') s)
      simp [hc, hl]

/-- **No more is read than what separates nothing.** -/
theorem length_entriesOf_le (s : List Char) :
    (entriesOf s).flatten.flatten.length ≤ s.countP isInField := by
  have hlines (ls : List (List Char)) : (ls.filterMap entryOf?).flatten.flatten.length ≤
      ls.flatten.countP (fun c => !isGap c) := by
    induction ls with
    | nil => exact Nat.le_refl _
    | cons l ls ih =>
      rw [List.filterMap_cons, List.flatten_cons, List.countP_append]
      cases he : entryOf? l with
      | none => exact Nat.le_trans ih (Nat.le_add_left _ _)
      | some e =>
        have := length_entryOf_le he
        simp only [List.flatten_cons, List.flatten_append, List.length_append]
        omega
  have h := hlines (s.splitOn '\n')
  rwa [flatten_splitOn, List.countP_filter] at h

theorem ne_nil_of_mem_entriesOf {s : List Char} {e : List (List Char)} (he : e ∈ entriesOf s) : ∀ f ∈ e, f ≠ [] := by
  obtain ⟨l, -, hl⟩ := List.mem_filterMap.1 he
  rw [← ofFields?_eq_some hl, List.forall_mem_map]
  exact fun w hw => unescape_ne_nil (Text.ne_nil_of_mem_runs w hw)

theorem filterMap_eq_self_iff {α : Type} {g : α → Option α} : ∀ {xs : List α}, xs.filterMap g = xs ↔ ∀ x ∈ xs, g x = some x
  | [] => by simp
  | x :: xs => by
    rw [List.filterMap_cons, List.forall_mem_cons, ← filterMap_eq_self_iff]
    cases hx : g x with
    | none =>
      refine iff_of_false (fun h => ?_) (by simp)
      have hlength := List.length_filterMap_le g xs
      rw [show xs.filterMap g = x :: xs from h, List.length_cons] at hlength
      omega
    | some y => simp

theorem feed_notMem_line : ∀ {e : List (List Char)}, (∀ f ∈ e, '\n' ∉ f) → '\n' ∉ line e
  | [], _ => List.not_mem_nil
  | [f], h => by simpa [line] using h f List.mem_cons_self
  | f :: g :: e, h => by
    obtain ⟨hf, h⟩ := List.forall_mem_cons.1 h
    rw [line_cons_cons]
    simp [hf, feed_notMem_line h]

theorem entriesOf_lines : ∀ {es : List (List (List Char))},
    (∀ e ∈ es, ∀ f ∈ e, f ≠ [] ∧ f.all isInField = true) →
    entriesOf (es.flatMap (fun e => line e ++ ['\n'])) = es.filterMap ofFields?
  | [], _ => rfl
  | e :: es, h => by
    obtain ⟨he, hes⟩ := List.forall_mem_cons.1 h
    have hchars (f : List Char) (hf : f ∈ e) (c : Char) (hc : c ∈ f) : isGap c = false ∧ c ≠ '\n' :=
      isInField_iff.1 (List.all_eq_true.1 (he f hf).2 c hc)
    have hfeed : '\n' ∉ line e := feed_notMem_line (fun f hf hc => (hchars f hf '\n' hc).2 rfl)
    rw [List.flatMap_cons, List.append_assoc, List.singleton_append, entriesOf_line hfeed, entriesOf_lines hes, entryOf?,
      runs_line (fun f hf => ⟨(he f hf).1, fun c hc => (hchars f hf c hc).1⟩), List.filterMap_cons]
    cases ofFields? e <;> rfl

theorem countP_line : ∀ e : List (List Char), (line e).countP isInField = e.flatten.countP isInField
  | [] => rfl
  | [f] => by simp [line]
  | f :: g :: e => by
    rw [line_cons_cons, List.countP_append, List.countP_cons, countP_line (g :: e), List.flatten_cons (l := f),
      List.countP_append]
    rfl

theorem countP_lines (es : List (List (List Char))) :
    (es.flatMap (fun e => line e ++ ['\n'])).countP isInField = es.flatten.flatten.countP isInField := by
  induction es with
  | nil => rfl
  | cons e es ih =>
    rw [List.flatMap_cons, List.countP_append, List.countP_append, countP_line, ih, List.flatten_cons, List.flatten_append,
      List.countP_append]
    rfl

/-- Lines are read as the entries they are written from just where each of these is read as it is written. -/
theorem entriesOf_lines_iff {es : List (List (List Char))} (hne : ∀ e ∈ es, e ≠ []) :
    entriesOf (es.flatMap (fun e => line e ++ ['\n'])) = es ↔ ∀ e ∈ es, IsEntry e := by
  have hiff (hfields : ∀ e ∈ es, ∀ f ∈ e, f ≠ [] ∧ f.all isInField = true) :
      entriesOf (es.flatMap (fun e => line e ++ ['\n'])) = es ↔ ∀ e ∈ es, IsEntry e := by
    rw [entriesOf_lines hfields, filterMap_eq_self_iff]
    refine forall₂_congr fun e he => ?_
    rw [ofFields?_eq_self_iff (hne e he), isEntry_iff, and_comm]
    refine and_congr_left' (forall₂_congr fun f hf => ?_)
    rw [isField_iff_unescape, and_iff_right (hfields e he f hf)]
  refine ⟨fun h => (hiff fun e he f hf => ⟨?_, ?_⟩).1 h, fun h => (hiff fun e he f hf => ?_).2 h⟩
  · exact ne_nil_of_mem_entriesOf (h.symm ▸ he) f hf
  · -- all characters of the fields were read, so none of them separates
    have hread := length_entriesOf_le (es.flatMap (fun e => line e ++ ['\n']))
    rw [h, countP_lines] at hread
    have hchars := List.countP_eq_length.1 (Nat.le_antisymm List.countP_le_length hread)
    exact List.all_eq_true.2 (fun c hc => hchars c (List.mem_flatten_of_mem (List.mem_flatten_of_mem he hf) hc))
  · exact (isField_iff_unescape.1 ((h e he).fields f hf)).1

theorem ne_empty_of_mem_entries {table : String} {e : List String} (he : e ∈ entries table) : ∀ f ∈ e, f ≠ "" := by
  obtain ⟨e', hread, rfl⟩ := List.mem_map.1 he
  rw [List.forall_mem_map]
  intro f hf hempty
  exact ne_nil_of_mem_entriesOf hread f hf (by simpa using congrArg String.toList hempty)

def IsComment (s : String) : Prop := ∃ comment, s.toList = '#' :: comment ++ ['\n'] ∧ '\n' ∉ comment

theorem isComment_fstabHeader : IsComment HostConfig.fstabHeader := by
  refine ⟨" /etc/fstab: static file system information, generated by strata".toList, ?_, ?_⟩
  · rw [HostConfig.fstabHeader, String.toList_ofList, String.toList_ofList]
    rfl
  · rw [String.toList_ofList]
    decide

theorem isComment_crypttabHeader : IsComment HostConfig.crypttabHeader := by
  refine ⟨" /etc/crypttab: encrypted block devices, generated by strata".toList, ?_, ?_⟩
  · rw [HostConfig.crypttabHeader, String.toList_ofList, String.toList_ofList]
    rfl
  · rw [String.toList_ofList]
    decide

/-- **A table is read back exactly where each of its entries is read as it is written.** -/
theorem entries_table_iff {header : String} (hheader : IsComment header) {es : List (List String)} (hne : ∀ e ∈ es, e ≠ []) :
    entries (header ++ String.join (es.map HostConfig.tableLine)) = es ↔ ∀ e ∈ es, IsEntry (e.map String.toList) := by
  obtain ⟨comment, hheader, hcomment⟩ := hheader
  have htext : (header ++ String.join (es.map HostConfig.tableLine)).toList =
      ('#' :: comment) ++ '\n' :: (es.map (·.map String.toList)).flatMap (fun e => line e ++ ['\n']) := by
    rw [String.toList_append, hheader, String.toList_join, List.flatMap_map, List.flatMap_map, List.append_assoc]
    exact congrArg (('#' :: comment) ++ '\n' :: ·) (List.flatMap_congr (fun e _ => toList_tableLine e))
  have hskipped : entryOf? ('#' :: comment) = none := by
    obtain ⟨w, ws, hruns⟩ := Text.exists_runs_cons (p := isGap) (c := '#') (by decide) comment
    rw [entryOf?, hruns]
    rfl
  have hfeed : '\n' ∉ '#' :: comment := by simp [hcomment]
  have hinverse : (es.map (·.map String.toList)).map (·.map String.ofList) = es := by
    simp [List.map_map, Function.comp_def]
  have hinj : Function.Injective (List.map (List.map String.ofList)) :=
    List.map_injective_iff.2 (List.map_injective_iff.2 (fun _ _ => String.ofList_injective))
  rw [entries, htext, entriesOf_line hfeed, hskipped, Option.toList_none, List.nil_append]
  nth_rewrite 2 [← hinverse]
  have hne' : ∀ e ∈ es.map (·.map String.toList), e ≠ [] :=
    List.forall_mem_map.2 (fun e he => mt List.map_eq_nil_iff.1 (hne e he))
  rw [hinj.eq_iff, entriesOf_lines_iff hne', List.forall_mem_map]

end Table

end Provision
