import Mathlib.Logic.Relation
import Provision.Proofs.Faults.Tokens
/-!
# Where the tokens of a YAML text end

Every token takes a character (`Scan.gives_token`), so cutting a text into tokens goes on until its end or until it cannot be
read on, and it cannot be read on for another reason than that it is no YAML exactly where a scalar between double quotes
stumbles or a version has a number of too many digits (`Tokens.fault_eq_misuse_iff`).
-/
namespace Provision

open Fault (IsUnparsable isUnparsable_unparsable)

namespace Yaml

namespace Cursor

def left (c : Cursor) : Nat := c.rest.length

theorem left_skip (n : Nat) (c : Cursor) : (c.skip n).left = c.left - n := by
  rw [left, rest_skip, List.length_drop, left]

theorem left_skip_le (n : Nat) (c : Cursor) : (c.skip n).left ≤ c.left := by
  rw [left_skip]
  omega

theorem left_skip_lt {n : Nat} (hn : 0 < n) {c : Cursor} (hc : 0 < c.left) : (c.skip n).left < c.left := by
  rw [left_skip]
  omega

theorem left_skipComment_le (c : Cursor) : c.skipComment.left ≤ c.left := by
  unfold skipComment
  split
  · exact left_skip_le _ c
  · exact Nat.le_refl _

end Cursor

open Cursor

theorem gives_skipLineEnd (c : Cursor) : Gives (fun d => d.left ≤ c.left) (skipLineEnd c) := by
  unfold skipLineEnd
  dsimp only
  split
  · exact .ok (Nat.le_trans (left_skip_le _ _) (Nat.le_trans (left_skipComment_le _) (left_skip_le _ c)))
  · exact .error _

theorem left_plainFrom_le (inFlow : Bool) (indent : Int) (read gap : List Char) (b : Bool) (c : Cursor) :
    (plainFrom inFlow indent read gap b c).cursor.left ≤ c.left := by
  fun_induction plainFrom inFlow indent read gap b c with
  | case1 => exact Nat.le_trans (left_skip_le _ _) (left_skip_le _ _)
  | case2 _ _ _ _ _ _ _ _ _ _ _ _ ih => exact Nat.le_trans ih (Nat.le_trans (left_skip_le _ _) (left_skip_le _ _))
  | case3 => exact Nat.le_refl _

theorem left_blockLines_le (folded : Bool) (indent : Nat) (read breaks : List Char) (c : Cursor) :
    (blockLines folded indent read breaks c).cursor.left ≤ c.left := by
  fun_induction blockLines folded indent read breaks c with
  | case1 _ _ _ _ _ _ _ _ _ _ _ _ _ _ ih => exact Nat.le_trans ih (Nat.le_trans (left_skip_le _ _) (left_skip_le _ _))
  | case2 => exact Nat.le_trans (left_skip_le _ _) (left_skip_le _ _)
  | case3 => exact Nat.le_refl _

theorem gives_block (folded : Bool) (indent : Int) (c : Cursor) :
    Gives (fun r => r.2.left ≤ c.left) (block folded indent c) := by
  unfold block
  dsimp only
  refine .guarded (.bind (gives_skipLineEnd _) fun d hd => .pure ?_)
  exact Nat.le_trans (left_blockLines_le _ _ _ _ _) (Nat.le_trans (left_skip_le _ _) (Nat.le_trans hd (left_skip_le _ c)))

theorem gives_quotedFrom (double : Bool) (read : List Nat) (c : Cursor) :
    Gives (fun r => r.2.left ≤ c.left) (quotedFrom double read c) := by
  fun_induction quotedFrom double read c
  case case1 => exact .error _
  case case2 => exact .error _
  case case4 => exact .ok (left_skip_le _ _)
  case case6 => exact .ok (left_skip_le _ _)
  case case7 => exact .error _
  all_goals
    rename_i ih
    exact fun r hr => Nat.le_trans (ih r hr) (left_skip_le _ _)

theorem gives_anchorName (c : Cursor) : Gives (fun r => r.2.left ≤ c.left) (anchorName c) := by
  unfold anchorName
  dsimp only
  split
  · exact .ok (left_skip_le _ c)
  · exact .error _

theorem gives_address (c : Cursor) : Gives (fun r => r.2.left ≤ c.left) (address c) := by
  refine .bind (P := fun _ => True) (fun _ _ => trivial) fun (bytes, n) _ => ?_
  dsimp only
  split
  · split
    · exact .error _
    · exact .pure (left_skip_le _ c)
  · exact .error _

theorem gives_handle (c : Cursor) : Gives (fun r => ∃ n, 0 < n ∧ r.2 = c.skip n) (handle c) := by
  unfold handle
  split
  · exact .error _
  · split
    · exact .ok ⟨1, Nat.one_pos, rfl⟩
    · dsimp only
      split
      · exact .ok ⟨_, Nat.succ_pos _, rfl⟩
      · exact .error _

theorem gives_tag {c : Cursor} (h : 0 < c.left) : Gives (fun r => r.2.left < c.left) (tag c) := by
  have hskip {n : Nat} (hn : 0 < n) {d : Cursor} (hd : d.left ≤ (c.skip n).left) : d.left < c.left :=
    Nat.lt_of_le_of_lt hd (left_skip_lt hn h)
  have hend (token : Token) {next : Cursor} (hn : next.left < c.left) : Gives (fun r => r.2.left < c.left)
      (if endsProperty next.peek then pure (token, next) else throw .unparsable) := by
    split
    · exact .pure hn
    · exact .error _
  unfold tag
  dsimp only
  split
  · refine .bind (gives_address _) fun (suffix, next) hn => .guarded (hend _ (hskip (n := 2) (by omega) ?_))
    exact Nat.le_trans (left_skip_le _ _) hn
  · split
    · exact hend _ (left_skip_lt (by omega) h)
    · split
      · refine .bind (gives_handle c) fun (name, next) ⟨n, hn, hnext⟩ =>
          .bind (gives_address next) fun (suffix, next') hn' =>
          hend _ (hskip hn (hnext ▸ hn'))
      · exact .bind (gives_address _) fun (suffix, next) hn => hend _ (hskip (by omega) hn)

theorem gives_versionNumber (c : Cursor) : Gives (fun r => r.2.left ≤ c.left) (versionNumber c) := by
  unfold versionNumber
  dsimp only
  split
  · exact .error _
  · split
    · exact .error _
    · exact .ok (left_skip_le _ c)

theorem left_skipSpaces_le (c : Cursor) : (skipSpaces c).left ≤ c.left := left_skip_le _ c

theorem gives_version (c : Cursor) : Gives (fun r => r.2.left ≤ c.left) (version c) := by
  refine .bind (gives_versionNumber c) fun (major, next) hn => .guarded ?_
  refine .bind (gives_versionNumber _) fun (_, next') hn' => .guarded (.pure ?_)
  exact Nat.le_trans hn' (Nat.le_trans (left_skip_le 1 next) hn)

theorem gives_handleStart (c : Cursor) : Gives (fun r => r.2.left ≤ c.left) (handleStart c) := by
  refine .bind (gives_handle c) fun (name, next) ⟨n, _, (hn : next = _)⟩ => .guarded ?_
  refine .bind (gives_address _) fun (start, next') hn' => .guarded (.pure ?_)
  exact Nat.le_trans hn' (Nat.le_trans (left_skipSpaces_le next) (hn ▸ left_skip_le n c))

theorem gives_directive (c : Cursor) : Gives (fun r => r.2.left ≤ c.left) (directive c) := by
  have hend {d : Directive} {next : Cursor} (hn : next.left ≤ c.left) :
      Gives (fun r => r.2.left ≤ c.left)
        (pure (d, next) >>= fun r => skipLineEnd r.2 >>= fun next => pure (Token.directive r.1, next)) :=
    .bind (.pure hn) fun r hr => .bind (gives_skipLineEnd r.2) fun e he => .pure (Nat.le_trans he hr)
  have hname : (c.skip (c.rest.takeWhile isWord).length).left ≤ c.left := left_skip_le _ c
  have hbehind : (skipSpaces (c.skip (c.rest.takeWhile isWord).length)).left ≤ c.left :=
    Nat.le_trans (left_skipSpaces_le _) hname
  unfold directive
  dsimp only
  refine .guarded ?_
  split
  · exact .bind (gives_version _) fun (d, next) hn => hend (Nat.le_trans hn hbehind)
  · split
    · exact .bind (gives_handleStart _) fun (d, next) hn => hend (Nat.le_trans hn hbehind)
    · exact hend (Nat.le_trans (left_skip_le _ _) hname)

namespace Scan

variable {s : Scan}

theorem cursor_forget (s : Scan) : Gives (fun t => t.cursor = s.cursor) s.forget := by
  unfold forget
  split
  · exact .error _
  · exact .ok rfl

theorem cursor_note (s : Scan) : Gives (fun t => t.cursor = s.cursor) s.note := by
  unfold note
  split
  · exact .bind s.cursor_forget fun t ht => .pure ht
  · exact .ok rfl

theorem depth_note (s : Scan) : Gives (fun t => t.depth = s.depth) s.note := by
  have hforget : Gives (fun t => t.depth = s.depth) s.forget := by
    unfold forget
    split
    · exact .error _
    · exact .ok rfl
  unfold note
  split
  · exact .bind hforget fun t ht => .pure ht
  · exact .ok rfl

theorem cursor_prune (s : Scan) : Gives (fun t => t.cursor = s.cursor) s.prune := by
  unfold prune
  split
  · exact .error _
  · exact .ok rfl

theorem cursor_close (s : Scan) (column : Int) : (s.close column).cursor = s.cursor := by
  unfold close
  split <;> rfl

theorem cursor_openBlock (s : Scan) (column : Nat) (t : Token) (position : Nat) :
    (s.openBlock column t position).cursor = s.cursor := by
  unfold openBlock
  split <;> rfl

theorem cursor_openItem (s : Scan) (t : Token) : Gives (fun u => u.cursor = s.cursor) (s.openItem t) := by
  unfold openItem
  split
  · exact .ok rfl
  · split
    · exact .ok (s.cursor_openBlock _ _ _)
    · exact .error _

theorem cursor_startOver (s : Scan) : Gives (fun t => t.cursor = s.cursor) s.startOver :=
  .bind (cursor_forget _) fun _ ht => .pure (ht.trans (s.cursor_close _))

theorem gives_of_cursor {x : Except Fault Scan} {f : Scan → Scan} (hx : Gives (fun t => t.cursor = s.cursor) x)
    (hf : ∀ t, (f t).cursor = t.cursor.skip 1) (hs : 0 < s.cursor.left) :
    Gives (fun t => t.cursor.left < s.cursor.left) (x >>= fun t => pure (f t)) :=
  .bind hx fun _ ht => .pure (by rw [hf, ht]; exact left_skip_lt Nat.one_pos hs)

theorem gives_item (block : Token) {f : Scan → Scan} (hf : ∀ t, (f t).cursor = t.cursor.skip 1) (hs : 0 < s.cursor.left) :
    Gives (fun t => t.cursor.left < s.cursor.left) (s.openItem block >>= fun t => t.forget >>= fun u => pure (f u)) := by
  refine .bind (s.cursor_openItem block) fun t ht => ?_
  rw [← ht] at hs ⊢
  exact gives_of_cursor t.cursor_forget hf hs

theorem gives_property {read : Cursor → Except Fault (Token × Cursor)}
    (h : Gives (fun r => r.2.left < s.cursor.left) (read s.cursor)) :
    Gives (fun t => t.cursor.left < s.cursor.left) (s.property read) :=
  .bind s.cursor_note fun _ ht => .bind (ht ▸ h) fun _ hr => .pure hr

theorem gives_quoted (double : Bool) (hs : 0 < s.cursor.left) :
    Gives (fun t => t.cursor.left < s.cursor.left) (s.quoted double) :=
  gives_property (.bind (gives_quotedFrom _ _ _) fun _ hr => .pure (Nat.lt_of_le_of_lt hr (left_skip_lt Nat.one_pos hs)))

theorem gives_blockScalar (folded : Bool) (hs : 0 < s.cursor.left) :
    Gives (fun t => t.cursor.left < s.cursor.left) (s.blockScalar folded) := by
  refine .bind s.cursor_forget fun t ht => .bind (gives_block _ _ _) fun r hr => .pure (Nat.lt_of_le_of_lt hr ?_)
  rw [ht]
  exact left_skip_lt Nat.one_pos hs

theorem gives_anchor (mark : String → Token) (hs : 0 < s.cursor.left) :
    Gives (fun t => t.cursor.left < s.cursor.left)
      (s.property (fun c => (anchorName (c.skip 1)).map (fun r => (mark r.1, r.2)))) :=
  gives_property (.map fun r hr => Nat.lt_of_le_of_lt (gives_anchorName _ r hr) (left_skip_lt Nat.one_pos hs))

theorem gives_value (hs : 0 < s.cursor.left) : Gives (fun t => t.cursor.left < s.cursor.left) s.value := by
  unfold value
  split
  · refine .pure ?_
    change (Cursor.skip 1 (Scan.cursor (openBlock _ _ _ _))).left < _
    rw [cursor_openBlock]
    exact left_skip_lt Nat.one_pos hs
  · exact gives_item .blockMapping (fun _ => rfl) hs

theorem not_endsFlowScalar {ch : Char} (h : isIndicator ch = false) : endsFlowScalar ch = false := by
  have hall : ",?[]\x7b\x7d".toList.all isIndicator = true := by decide
  refine Bool.eq_false_iff.2 fun hflow => ?_
  rw [endsFlowScalar, List.contains_iff_mem] at hflow
  exact absurd (List.all_eq_true.1 hall ch hflow) (by simp [h])

theorem wordLength_pos {inFlow : Bool} {ch : Char} {rest : List Char} (h : startsPlain inFlow ch (rest.headD '\x00') = true)
    (hvalue : inFlow = true → ch ≠ ':') : 0 < wordLength inFlow (ch :: rest) := by
  have hstops : (isGap ch || (ch == ':' &&
      (endsIndicator (rest.headD '\x00') || (inFlow && followsFlowKey (rest.headD '\x00')))) ||
      (inFlow && endsFlowScalar ch)) = false := by
    unfold startsPlain at h
    generalize rest.headD '\x00' = next at h ⊢
    obtain h | h := Bool.or_eq_true_iff.1 h
    · simp only [Bool.not_eq_true', Bool.or_eq_false_iff] at h
      have hgap : isGap ch = false := Bool.eq_false_iff.2 fun hg => absurd (endsIndicator_of_isGap hg) (by simp [h.1])
      have hcolon : ch ≠ ':' := by rintro rfl; exact absurd h.2 (by decide)
      simp [hgap, hcolon, not_endsFlowScalar h.2]
    · simp only [Bool.and_eq_true, Bool.not_eq_true', Bool.or_eq_true, beq_iff_eq] at h
      obtain ⟨hnext, rfl | ⟨rfl, rfl | rfl⟩⟩ := h
      · simp only [show isGap '-' = false from rfl, show endsFlowScalar '-' = false from by decide]
        simp
      · simp only [show isGap '?' = false from rfl]
        simp
      · simp only [show isGap ':' = false from rfl, hnext]
        simp
  rw [wordLength, if_neg (Bool.not_eq_true _ ▸ hstops)]
  exact Nat.succ_pos _

theorem left_plainFrom_lt {inFlow : Bool} {c : Cursor} (h : 0 < wordLength inFlow c.rest) (hc : 0 < c.left) (indent : Int)
    (read gap : List Char) (b : Bool) : (plainFrom inFlow indent read gap b c).cursor.left < c.left := by
  have hword := left_skip_lt h hc
  have hrest : c.rest ≠ [] := List.length_pos_iff.1 hc
  rw [plainFrom]
  dsimp only
  rw [dif_pos ⟨h, hrest⟩]
  split
  · exact Nat.lt_of_le_of_lt (left_skip_le _ _) hword
  · exact Nat.lt_of_le_of_lt (Nat.le_trans (left_plainFrom_le _ _ _ _ _ _) (left_skip_le _ _)) hword

theorem gives_plain (h : 0 < wordLength (s.depth != 0) s.cursor.rest) (hs : 0 < s.cursor.left) :
    Gives (fun t => t.cursor.left < s.cursor.left) s.plain := by
  unfold plain
  have hnote : Gives (fun t => t.cursor = s.cursor ∧ t.depth = s.depth) s.note :=
    fun t ht => ⟨s.cursor_note t ht, s.depth_note t ht⟩
  refine .bind hnote fun t ⟨hcursor, hdepth⟩ => .pure ?_
  change Cursor.left (Plain.cursor (plainFrom _ _ _ _ _ t.cursor)) < _
  rw [hcursor, hdepth]
  exact left_plainFrom_lt h hs _ _ _ _

/-- **Every token takes a character.** -/
theorem gives_token {ch : Char} {rest : List Char} (h : s.cursor.rest = ch :: rest) :
    Gives (fun t => t.cursor.left < s.cursor.left) (s.token ch) := by
  have hs : 0 < s.cursor.left := by simp [left, h]
  have hnext : s.cursor.peek 1 = rest.headD '\x00' := by simp [peek, h]
  fun_cases token s ch
  case case1 =>
    refine .bind s.cursor_startOver fun t ht => .bind (gives_directive _) fun r hr => .pure (Nat.lt_of_le_of_lt hr ?_)
    exact left_skip_lt Nat.one_pos hs
  case case2 => exact .bind s.cursor_startOver fun _ _ => .pure (left_skip_lt (by omega) hs)
  case case3 => exact .bind s.cursor_startOver fun _ _ => .pure (left_skip_lt (by omega) hs)
  case case4 => exact gives_of_cursor s.cursor_note (fun _ => rfl) hs
  case case5 => exact gives_of_cursor s.cursor_note (fun _ => rfl) hs
  case case6 => exact gives_of_cursor s.cursor_forget (fun _ => rfl) hs
  case case7 => exact gives_of_cursor s.cursor_forget (fun _ => rfl) hs
  case case8 => exact gives_of_cursor s.cursor_forget (fun _ => rfl) hs
  case case9 => exact gives_item .blockSequence (fun _ => rfl) hs
  case case10 => exact gives_item .blockMapping (fun _ => rfl) hs
  case case11 => exact gives_value hs
  case case12 => exact gives_anchor .alias hs
  case case13 => exact gives_anchor .anchor hs
  case case14 => exact gives_property (gives_tag hs)
  case case15 => exact gives_blockScalar _ hs
  case case16 => exact gives_blockScalar _ hs
  case case17 => exact gives_quoted _ hs
  case case18 => exact gives_quoted _ hs
  case case19 inFlow _ _ _ _ _ _ _ _ _ _ _ hvalue _ _ _ _ _ _ _ hplain =>
    rw [hnext] at hplain
    refine gives_plain (h ▸ wordLength_pos hplain fun hflow hch => ?_) hs
    exact hvalue (by simp [hch, hflow, inFlow])
  case case20 => exact .error _

/-! ## Steps -/

theorem left_skipGap_le (s : Scan) : s.skipGap.cursor.left ≤ s.cursor.left := by
  refine Nat.le_trans (left_skip_le _ _) ?_
  split
  · rw [left, rest_step, List.length_drop, left]
    omega
  · exact Nat.le_refl _

theorem gives_ready (s : Scan) : Gives (fun t => t.cursor.left ≤ s.cursor.left) s.ready := by
  refine .bind s.skipGap.cursor_prune fun t ht => .pure ?_
  rw [cursor_close, ht]
  exact s.left_skipGap_le

theorem left_lt_of_step {t : Scan} (h : s.step = .ok (t, true)) : t.cursor.left < s.cursor.left := by
  obtain ⟨u, hu, h⟩ := except_bind_eq_ok_iff.1 h
  split at h
  · obtain ⟨_, -, h⟩ := except_bind_eq_ok_iff.1 h
    cases h
  · rename_i hrest
    obtain ⟨v, hv, h⟩ := except_bind_eq_ok_iff.1 h
    cases h
    exact Nat.lt_of_lt_of_le (gives_token hrest _ hv) (gives_ready s u hu)

/-- **What comes next cannot be read on.**  It is a scalar between double quotes that stumbles, or a version with a number of
too many digits. -/
inductive Stumbles (s : Scan) (m : Misuse) : Prop
  | quoted {t u : Scan} {rest : List Char} (ht : s.ready = .ok t) (hrest : t.cursor.rest = '"' :: rest) (hu : t.note = .ok u)
      (h : Yaml.Stumbles m rest)
  | version {t u : Scan} {rest : List Char} (ht : s.ready = .ok t) (hrest : t.cursor.rest = '%' :: rest)
      (hcolumn : t.cursor.column = 0) (hu : t.startOver = .ok u) (h : LongDirective m rest)

theorem token_quote {rest : List Char} (h : s.cursor.rest = '"' :: rest) : s.token '"' = s.quoted true := by
  have hmarker (mark : Char) (hmark : mark ≠ '"') : startsMarker mark ('"' :: rest) = false := by
    simp [startsMarker, hmark.symm]
  unfold token
  simp [h, hmarker]

theorem quoted_eq_misuse_iff {rest : List Char} (h : s.cursor.rest = '"' :: rest) {m : Misuse} :
    s.quoted true = .error (.misuse m) ↔ (∃ u, s.note = .ok u) ∧ Yaml.Stumbles m rest := by
  have hread {u : Scan} (hu : s.note = .ok u) :
      (quotedFrom true [] (u.cursor.skip 1) = .error (.misuse m) ↔ Yaml.Stumbles m rest) := by
    rw [quotedFrom_eq_misuse_iff, s.cursor_note u hu, rest_skip, h]
    rfl
  simp only [quoted, property, except_bind_eq_error_iff, s.failsIn_note.ne_misuse m, false_or]
  constructor
  · rintro ⟨u, hu, (h' | ⟨_, -, h'⟩) | ⟨_, -, h'⟩⟩
    · exact ⟨⟨u, hu⟩, (hread hu).1 h'⟩
    · cases h'
    · cases h'
  · rintro ⟨⟨u, hu⟩, hstumbles⟩
    exact ⟨u, hu, .inl (.inl ((hread hu).2 hstumbles))⟩

theorem token_directive_eq_misuse_iff {rest : List Char} (h : s.cursor.rest = '%' :: rest) (hcolumn : s.cursor.column = 0)
    {m : Misuse} : s.token '%' = .error (.misuse m) ↔ (∃ u, s.startOver = .ok u) ∧ LongDirective m rest := by
  have hbehind : (s.cursor.skip 1).rest = rest := by
    rw [rest_skip, h]
    rfl
  have htoken : s.token '%' = s.startOver >>= fun u => (fun r => u.take r.1 r.2) <$> directive (s.cursor.skip 1) := by
    unfold token
    simp [hcolumn]
  rw [htoken, except_bind_eq_error_iff, or_iff_right (s.failsIn_startOver.ne_misuse m)]
  simp only [except_map_eq_error_iff, directive_eq_misuse_iff, hbehind]
  exact exists_and_right

/-- **Which tokens end in a misuse.** -/
theorem token_eq_misuse_iff {ch : Char} {rest : List Char} (hrest : s.cursor.rest = ch :: rest) {m : Misuse} :
    s.token ch = .error (.misuse m) ↔ ch = '"' ∧ (∃ u, s.note = .ok u) ∧ Yaml.Stumbles m rest ∨
      ch = '%' ∧ s.cursor.column = 0 ∧ (∃ u, s.startOver = .ok u) ∧ LongDirective m rest := by
  by_cases hquote : ch = '"'
  · subst hquote
    rw [token_quote hrest, quoted_eq_misuse_iff hrest]
    simp
  by_cases hdirective : ch = '%' ∧ s.cursor.column = 0
  · obtain ⟨rfl, hcolumn⟩ := hdirective
    rw [token_directive_eq_misuse_iff hrest hcolumn]
    simp [hcolumn]
  · refine iff_of_false ?_ ?_
    · exact (s.failsIn_token isUnparsable_unparsable ch (fun h => absurd h hquote) fun h hcolumn =>
        absurd ⟨h, hcolumn⟩ hdirective).ne_misuse m
    · rintro (⟨h, -⟩ | ⟨h, hcolumn, -⟩)
      · exact hquote h
      · exact hdirective ⟨h, hcolumn⟩

theorem step_of_rest {t : Scan} {ch : Char} {rest : List Char} (ht : s.ready = .ok t) (hrest : t.cursor.rest = ch :: rest) :
    s.step = t.token ch >>= fun u => .ok (u, true) := by
  rw [step, ht, except_ok_bind, hrest]
  rfl

theorem step_eq_misuse_iff {m : Misuse} : s.step = .error (.misuse m) ↔ s.Stumbles m := by
  constructor
  · intro h
    rw [step, except_bind_eq_error_iff, or_iff_right (s.failsIn_ready.ne_misuse m)] at h
    obtain ⟨t, ht, h⟩ := h
    split at h
    · exact absurd h (((failsIn_forget _).bind fun _ => .pure _).ne_misuse m)
    · rename_i ch rest hrest
      obtain h | ⟨_, -, h⟩ := except_bind_eq_error_iff.1 h
      · obtain ⟨rfl, ⟨u, hu⟩, h⟩ | ⟨rfl, hcolumn, ⟨u, hu⟩, h⟩ := (token_eq_misuse_iff hrest).1 h
        · exact .quoted ht hrest hu h
        · exact .version ht hrest hcolumn hu h
      · cases h
  · rintro (⟨ht, hrest, hu, h⟩ | ⟨ht, hrest, hcolumn, hu, h⟩) <;> rw [step_of_rest ht hrest]
    · exact except_bind_eq_error_iff.2 (.inl ((token_eq_misuse_iff hrest).2 (.inl ⟨rfl, ⟨_, hu⟩, h⟩)))
    · exact except_bind_eq_error_iff.2 (.inl ((token_eq_misuse_iff hrest).2 (.inr ⟨rfl, hcolumn, ⟨_, hu⟩, h⟩)))

def Leads (s t : Scan) : Prop := s.step = .ok (t, true)

end Scan

namespace Tokens

open Relation (ReflTransGen)

theorem fault_scanFrom_iff {fuel : Nat} {s : Scan} (hfuel : s.cursor.left < fuel) {m : Misuse} :
    (scanFrom fuel s).fault = some (.misuse m) ↔ ∃ t, ReflTransGen Scan.Leads s t ∧ t.Stumbles m := by
  induction fuel generalizing s with
  | zero => omega
  | succ fuel ih =>
    have hhead : (∃ t, ReflTransGen Scan.Leads s t ∧ t.Stumbles m) ↔
        s.Stumbles m ∨ ∃ u, s.Leads u ∧ ∃ t, ReflTransGen Scan.Leads u t ∧ t.Stumbles m := by
      constructor
      · rintro ⟨t, hst, ht⟩
        obtain rfl | ⟨u, hsu, hut⟩ := hst.cases_head
        · exact .inl ht
        · exact .inr ⟨u, hsu, t, hut, ht⟩
      · rintro (hs | ⟨u, hsu, t, hut, ht⟩)
        · exact ⟨s, .refl, hs⟩
        · exact ⟨t, .head hsu hut, ht⟩
    rw [scanFrom_succ, hhead, ← Scan.step_eq_misuse_iff]
    cases hstep : s.step with
    | error f => simp [Scan.Leads, hstep]
    | ok r =>
      obtain ⟨u, _ | _⟩ := r
      · simp [Scan.Leads, hstep]
      · have hleft := Scan.left_lt_of_step hstep
        dsimp only
        rw [ih (by omega)]
        simp [Scan.Leads, hstep]

/-- **A text that cannot be cut into tokens**, though it may be YAML up to there: doing so comes to a scalar between
double quotes that stumbles, or to a version with a number of too many digits. -/
def Stumbles (s : List Char) (m : Misuse) : Prop :=
  s.all isAllowed = true ∧ ∃ t, ReflTransGen Scan.Leads { cursor := ⟨s, 0, 0, 0⟩ } t ∧ t.Stumbles m

theorem Stumbles.ne_endless {s : List Char} {m : Misuse} (h : Stumbles s m) : m ≠ .endless := by
  obtain ⟨-, _, -, ⟨-, -, -, hstumbles⟩ | ⟨-, -, -, -, rest, -, hversion⟩⟩ := h
  · exact hstumbles.ne_endless
  · exact hversion.ne_endless

theorem fault_eq_misuse_iff {s : List Char} {m : Misuse} : (ofText s).fault = some (.misuse m) ↔ Stumbles s m := by
  unfold ofText Stumbles
  split
  · rename_i hall
    have hfuel : (Scan.cursor { cursor := ⟨s, 0, 0, 0⟩ }).left < s.length + 1 := Nat.lt_succ_self _
    rw [fault_scanFrom_iff hfuel, and_iff_right hall]
  · rename_i hall
    simp [hall]

end Tokens

end Yaml

end Provision
