import Provision.Proofs.Faults.Quoted
import Provision.Yaml.Scan
/-!
# What is wrong with the tokens of a YAML text

A YAML text is cut into tokens up to where it cannot be read on.  What is wrong there is that it is no YAML, that an escape
names no character, or that a number of its version has too many digits (`directive_eq_misuse_iff`).
-/
namespace Provision

open Fault (IsReading IsUnparsable)

namespace Yaml

/-! ## Scalars -/

@[grind .] theorem failsIn_skipLineEnd (c : Cursor) : FailsIn IsUnparsable (skipLineEnd c) := by
  grind [skipLineEnd]

@[grind .] theorem failsIn_block (folded : Bool) (indent : Int) (c : Cursor) :
    FailsIn IsUnparsable (block folded indent c) := by
  grind [block]

/-! ## Tokens -/

@[grind .] theorem failsIn_anchorName (c : Cursor) : FailsIn IsUnparsable (anchorName c) := by
  unfold anchorName
  dsimp only
  split <;> simp

@[grind .] theorem failsIn_addressBytes (s : List Char) : FailsIn IsUnparsable (addressBytes s) := by
  fun_induction addressBytes s <;> grind

@[grind .] theorem failsIn_address (c : Cursor) : FailsIn IsUnparsable (address c) := by
  rw [address, FailsIn.bind_iff]
  refine ⟨failsIn_addressBytes _, fun (bytes, n) _ => ?_⟩
  dsimp only
  split <;> grind

@[grind .] theorem failsIn_handle (c : Cursor) : FailsIn IsUnparsable (handle c) := by
  grind [handle]

@[grind .] theorem failsIn_tag (c : Cursor) : FailsIn IsUnparsable (tag c) := by
  unfold tag
  grind

@[grind .] theorem failsIn_handleStart (c : Cursor) : FailsIn IsUnparsable (handleStart c) := by
  unfold handleStart
  grind

@[grind .] theorem failsIn_versionNumber (c : Cursor) : FailsIn IsReading (versionNumber c) := by
  grind [versionNumber]

theorem failsIn_directive (c : Cursor) : FailsIn IsReading (directive c) := by
  have hstart := (failsIn_handleStart (skipSpaces (c.skip (c.rest.takeWhile isWord).length))).mono fun _ =>
    IsUnparsable.isReading
  have hend (d : Cursor) := (failsIn_skipLineEnd d).mono fun _ => IsUnparsable.isReading
  unfold directive
  grind [version]

/-! ### Versions -/

/-- **A number of too many digits** at the start of a text.  The fault says how many there are. -/
def LongNumber (m : Misuse) (s : List Char) : Prop :=
  Text.maxDigits < (s.takeWhile Char.isDigit).length ∧ m = .misread (.tooManyDigits (s.takeWhile Char.isDigit).length)

/-- **A version with a number of too many digits**: the first one, or the one behind the point. -/
inductive LongVersion (m : Misuse) (s : List Char) : Prop
  | major (h : LongNumber m s)
  | minor {digits more : List Char} (hs : s = digits ++ '.' :: more) (hne : digits ≠ [])
      (hdigits : ∀ d ∈ digits, d.isDigit = true) (hlength : digits.length ≤ Text.maxDigits) (h : LongNumber m more)

/-- The directive of such a version, behind its per cent sign. -/
def LongDirective (m : Misuse) (s : List Char) : Prop :=
  ∃ rest, s = "YAML".toList ++ ' ' :: rest ∧ LongVersion m (rest.dropWhile (· == ' '))

theorem versionNumber_eq_misuse_iff {c : Cursor} {m : Misuse} :
    versionNumber c = .error (.misuse m) ↔ LongNumber m c.rest := by
  unfold versionNumber LongNumber
  dsimp only
  split
  · rename_i hnil
    rw [hnil]
    exact iff_of_false (fun h => nomatch h) fun h => absurd h.1 (Nat.not_lt_zero _)
  · split
    · rename_i hlong
      exact ⟨fun h => ⟨hlong, by cases h; rfl⟩, fun h => by rw [h.2]⟩
    · exact iff_of_false (fun h => nomatch h) fun h => ‹¬ _› h.1

theorem exists_versionNumber_iff {c next : Cursor} : (∃ n, versionNumber c = .ok (n, next)) ↔
    c.rest.takeWhile Char.isDigit ≠ [] ∧ (c.rest.takeWhile Char.isDigit).length ≤ Text.maxDigits ∧
      next = c.skip (c.rest.takeWhile Char.isDigit).length := by
  unfold versionNumber
  dsimp only
  split
  · exact iff_of_false (fun ⟨_, h⟩ => nomatch h) fun h => h.1 ‹_›
  · split
    · exact iff_of_false (fun ⟨_, h⟩ => nomatch h) fun h => absurd h.2.1 (Nat.not_le.2 ‹_›)
    · rename_i hne hlong
      refine ⟨fun ⟨_, h⟩ => ?_, fun ⟨_, _, h⟩ => ⟨_, by rw [h]⟩⟩
      cases h
      exact ⟨hne, Nat.not_lt.1 hlong, rfl⟩

theorem version_eq_misuse_iff {c : Cursor} {m : Misuse} : version c = .error (.misuse m) ↔ LongVersion m c.rest := by
  rw [version, except_bind_eq_error_iff, versionNumber_eq_misuse_iff]
  constructor
  · rintro (h | ⟨⟨major, next⟩, hmajor, h⟩)
    · exact .major h
    · obtain ⟨hne, hlength, rfl⟩ := exists_versionNumber_iff.1 ⟨_, hmajor⟩
      dsimp only at h
      split at h
      · cases h
      · rename_i hpoint
        obtain ⟨more, hmore⟩ : ∃ more, c.rest.dropWhile Char.isDigit = '.' :: more := by
          rw [Cursor.peek, Cursor.rest_skip, List.drop_zero, drop_length_takeWhile] at hpoint
          generalize c.rest.dropWhile Char.isDigit = behind at hpoint
          cases behind <;> simp_all
        obtain h | ⟨_, -, h⟩ := except_bind_eq_error_iff.1 h
        · rw [versionNumber_eq_misuse_iff, Cursor.rest_skip, Cursor.rest_skip, drop_length_takeWhile, hmore] at h
          have hs : c.rest = c.rest.takeWhile Char.isDigit ++ '.' :: more := by
            rw [← hmore, List.takeWhile_append_dropWhile]
          exact .minor hs hne (List.all_eq_true.1 List.all_takeWhile) hlength h
        · split at h <;> cases h
  · rintro (h | ⟨hs, hne, hdigits, hlength, h⟩)
    · exact .inl h
    · rename_i digits more
      have htake : c.rest.takeWhile Char.isDigit = digits := by
        rw [hs, List.takeWhile_append_of_pos hdigits]
        simp
      obtain ⟨n, hn⟩ := exists_versionNumber_iff.2 ⟨htake ▸ hne, htake ▸ hlength, rfl⟩
      have hrest : (c.skip (c.rest.takeWhile Char.isDigit).length).rest = '.' :: more := by
        rw [Cursor.rest_skip, htake, hs, List.drop_left]
      refine .inr ⟨_, hn, ?_⟩
      have hpoint : ((c.skip (c.rest.takeWhile Char.isDigit).length).peek != '.') = false := by
        rw [Cursor.peek, hrest]
        rfl
      dsimp only
      rw [if_neg (by rw [hpoint]; exact Bool.false_ne_true)]
      refine except_bind_eq_error_iff.2 (.inl (versionNumber_eq_misuse_iff.2 ?_))
      rwa [Cursor.rest_skip, hrest]

theorem LongVersion.ne_endless {m : Misuse} {s : List Char} (h : LongVersion m s) : m ≠ .endless := by
  obtain ⟨-, rfl⟩ | ⟨-, -, -, -, -, rfl⟩ := h <;> simp

theorem LongVersion.exists_cons {m : Misuse} {s : List Char} (h : LongVersion m s) :
    ∃ d t, s = d :: t ∧ d.isDigit = true := by
  cases h with
  | major h =>
    have hne : s.takeWhile Char.isDigit ≠ [] := List.ne_nil_of_length_pos (Nat.zero_lt_of_lt h.1)
    cases s with
    | nil => exact absurd rfl hne
    | cons d t => exact ⟨d, t, rfl, by_contra fun hd => hne (List.takeWhile_cons_of_neg hd)⟩
  | minor hs hne hdigits =>
    obtain ⟨d, ds, rfl⟩ := List.exists_cons_of_ne_nil hne
    exact ⟨d, _, hs, hdigits d List.mem_cons_self⟩

theorem not_isDigit_of_endsProperty {c : Char} (h : endsProperty c = true) : c.isDigit = false := by
  simp only [endsProperty, endsLine, isBreak, Bool.or_eq_true, beq_iff_eq] at h
  obtain rfl | rfl | (((rfl | rfl) | rfl) | rfl) | rfl := h <;> rfl

theorem rest_skipSpaces (c : Cursor) : (skipSpaces c).rest = c.rest.dropWhile (· == ' ') := by
  rw [skipSpaces, Cursor.skipWhile, Cursor.rest_skip, drop_length_takeWhile]

theorem longDirective_of_longVersion {c : Cursor} {m : Misuse} (hname : c.rest.takeWhile isWord = "YAML".toList)
    (hends : endsProperty (c.skip "YAML".toList.length).peek = true)
    (h : LongVersion m (skipSpaces (c.skip "YAML".toList.length)).rest) : LongDirective m c.rest := by
  rw [rest_skipSpaces, Cursor.rest_skip] at h
  rw [Cursor.peek, Cursor.rest_skip] at hends
  have hsplit := List.takeWhile_append_dropWhile (p := isWord) (l := c.rest)
  rw [← drop_length_takeWhile, hname] at hsplit
  generalize c.rest.drop "YAML".toList.length = behind at h hends hsplit
  obtain ⟨d, t, hd, hdigit⟩ := h.exists_cons
  cases behind with
  | nil => cases hd
  | cons b rest =>
    by_cases hb : b = ' '
    · subst hb
      exact ⟨rest, hsplit.symm, h⟩
    · -- what ends the name is a space, as digits follow
      rw [List.dropWhile_cons_of_neg (by simpa using hb)] at hd
      obtain ⟨rfl, -⟩ := List.cons.inj hd
      simp [not_isDigit_of_endsProperty (show endsProperty b = true from hends)] at hdigit

/-- **A directive ends in a misuse** where it is one of a version with a number of too many digits. -/
theorem directive_eq_misuse_iff {c : Cursor} {m : Misuse} : directive c = .error (.misuse m) ↔ LongDirective m c.rest := by
  constructor
  · intro h
    unfold directive at h
    dsimp only at h
    split at h
    · cases h
    · rename_i hnamed
      have hend {d : Directive} {next : Cursor} :
          (skipLineEnd next >>= fun next => pure (Token.directive d, next)) ≠ .error (.misuse m) :=
        ((failsIn_skipLineEnd next).bind fun _ => .pure _).ne_misuse m
      split at h
      · rename_i hname
        obtain h | ⟨_, -, h⟩ := except_bind_eq_error_iff.1 h
        · rw [hname] at h hnamed
          exact longDirective_of_longVersion hname (by simpa using hnamed) (version_eq_misuse_iff.1 h)
        · exact absurd h hend
      · split at h
        · obtain h | ⟨_, -, h⟩ := except_bind_eq_error_iff.1 h
          · exact absurd h ((failsIn_handleStart _).ne_misuse m)
          · exact absurd h hend
        · rw [pure_bind] at h
          exact absurd h hend
  · rintro ⟨rest, hs, h⟩
    have hname : c.rest.takeWhile isWord = "YAML".toList := by
      rw [hs]
      rfl
    have hbehind : (c.skip "YAML".toList.length).rest = ' ' :: rest := by
      rw [Cursor.rest_skip, hs, List.drop_left]
    unfold directive
    dsimp only
    rw [hname, if_neg, if_pos rfl]
    · refine except_bind_eq_error_iff.2 (.inl (version_eq_misuse_iff.2 ?_))
      rwa [rest_skipSpaces, hbehind]
    · rw [Cursor.peek, hbehind]
      simp [endsProperty]

namespace Scan

@[grind .] theorem failsIn_prune (s : Scan) : FailsIn IsUnparsable s.prune := by
  grind [prune]

@[grind .] theorem failsIn_forget (s : Scan) : FailsIn IsUnparsable s.forget := by
  grind [forget]

@[grind .] theorem failsIn_note (s : Scan) : FailsIn IsUnparsable s.note := by
  grind [note]

@[grind .] theorem failsIn_openItem (s : Scan) (block : Token) : FailsIn IsUnparsable (s.openItem block) := by
  grind [openItem]

@[grind .] theorem failsIn_startOver (s : Scan) : FailsIn IsUnparsable s.startOver := by
  grind [startOver]

theorem failsIn_property {P : Fault → Prop} (hP : P .unparsable) (s : Scan) {read : Cursor → Except Fault (Token × Cursor)}
    (h : ∀ c, FailsIn P (read c)) : FailsIn P (s.property read) :=
  .bind (s.failsIn_note.mono fun _ hf => (show _ = _ from hf) ▸ hP) fun t => .bind (h t.cursor) fun _ => .pure _

theorem failsIn_blockScalar (s : Scan) (folded : Bool) : FailsIn IsUnparsable (s.blockScalar folded) := by
  simp [blockScalar, failsIn_forget, failsIn_block]

/-- A token that is neither a scalar between double quotes nor a directive is refused where it cannot be read. -/
theorem failsIn_token {P : Fault → Prop} (hP : P .unparsable) (s : Scan) (ch : Char)
    (hquoted : ch = '"' → FailsIn P (s.quoted true))
    (hdirective : ch = '%' → s.cursor.column = 0 → ∀ c, FailsIn P (directive c)) : FailsIn P (s.token ch) := by
  have hrefused {x : Except Fault Scan} (h : FailsIn IsUnparsable x) : FailsIn P x := h.mono fun _ hf =>
    (show _ = _ from hf) ▸ hP
  have hproperty {read : Cursor → Except Fault (Token × Cursor)} (h : ∀ c, FailsIn IsUnparsable (read c)) :
      FailsIn P (s.property read) := hrefused (s.failsIn_property (by simp) h)
  have hname (mark : String → Token) :
      FailsIn P (s.property (fun c => (anchorName (c.skip 1)).map (fun r => (mark r.1, r.2)))) :=
    hproperty fun c => FailsIn.exceptMap_iff.2 (failsIn_anchorName _)
  fun_cases token s ch
  case case1 hch =>
    obtain ⟨rfl, hcolumn⟩ : ch = '%' ∧ s.cursor.column = 0 := by simpa using hch
    exact (hrefused s.failsIn_startOver).bind fun _ => (hdirective rfl hcolumn _).bind fun _ => .pure _
  case case12 => exact hname .alias
  case case13 => exact hname .anchor
  case case14 => exact hproperty failsIn_tag
  case case15 => exact hrefused (s.failsIn_blockScalar _)
  case case16 => exact hrefused (s.failsIn_blockScalar _)
  case case17 => exact hproperty fun c => (failsIn_quotedFrom_single _ _).bind fun _ => .pure _
  case case18 hch => exact hquoted (by simpa using hch)
  all_goals
    apply hrefused
    grind [openFlow, closeFlow, flowEntry, blockEntry, key, value, plain]

def ready (s : Scan) : Except Fault Scan := do
  let next ← s.skipGap.prune
  return next.close next.cursor.column

def step (s : Scan) : Except Fault (Scan × Bool) := do
  let t ← s.ready
  match t.cursor.rest with
  | [] =>
    let t ← (t.close (-1)).forget
    return (t, false)
  | ch :: _ =>
    let t ← t.token ch
    return (t, true)

theorem failsIn_ready (s : Scan) : FailsIn IsUnparsable s.ready := (failsIn_prune _).bind fun _ => .pure _

end Scan

namespace Tokens

theorem scanFrom_succ (fuel : Nat) (s : Scan) : scanFrom (fuel + 1) s = match s.step with
    | .error f => ⟨s.settled, some f⟩
    | .ok (next, false) => ⟨next.tokens.toList, none⟩
    | .ok (next, true) => scanFrom fuel next := by
  rw [scanFrom, Scan.step, Scan.ready]
  cases s.skipGap.prune <;> rfl

theorem isReading_of_ofText (s : List Char) : ∀ f ∈ (ofText s).fault, IsReading f := by
  have hquoted (s : Scan) : FailsIn IsReading (s.quoted true) :=
    s.failsIn_property (by simp) fun c => (failsIn_quotedFrom _ _ _).bind fun _ => .pure _
  have hstep (s : Scan) : FailsIn IsReading s.step := by
    refine (s.failsIn_ready.mono fun _ => IsUnparsable.isReading).bind fun t => ?_
    split
    · exact ((Scan.failsIn_forget _).mono fun _ => IsUnparsable.isReading).bind fun _ => .pure _
    · exact (t.failsIn_token (by simp) _ (fun _ => hquoted t) fun _ _ => failsIn_directive).bind fun _ => .pure _
  have hscan (fuel : Nat) (s : Scan) : ∀ f ∈ (scanFrom fuel s).fault, IsReading f := by
    induction fuel generalizing s with
    | zero => simp [scanFrom]
    | succ fuel ih =>
      rw [scanFrom_succ]
      split
      · rename_i f h
        simpa using (hstep s).of_eq_error h
      · simp
      · exact ih _
  unfold ofText
  split
  · exact hscan _ _
  · simp

end Tokens

end Yaml

end Provision
