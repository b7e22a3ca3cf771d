import Provision.Text.Digit
import Provision.Text.Surrogate
import Provision.Yaml.Cursor
/-!
# Scalars of a YAML text

How the text of a scalar is read in each style: plain, between quotes, and as an indented block.  Every function gives
the text and the place behind it.
-/
namespace Provision.Yaml

/-! ## Plain scalars -/

/-- The length of the word of a plain scalar: up to white space, up to a colon that ends a key, and between brackets up
to the marks that end an item. -/
def wordLength (inFlow : Bool) : List Char → Nat
  | [] => 0
  | c :: rest =>
    let next := rest.headD '\x00'
    if isGap c || (c == ':' && (endsIndicator next || (inFlow && followsFlowKey next))) ||
      (inFlow && endsFlowScalar c) then 0
    else wordLength inFlow rest + 1

structure Plain where
  text : List Char
  cursor : Cursor
  /-- Whether a line ended behind the last word. -/
  atLineStart : Bool

/-- Reads words while they belong to the scalar: outside brackets those that are indented, up to a comment or the end of
the document.  `read` is the text up to here, `gap` the white space behind it. -/
def plainFrom (inFlow : Bool) (indent : Int) (read gap : List Char) (atLineStart : Bool) (c : Cursor) : Plain :=
  let n := wordLength inFlow c.rest
  if _h : 0 < n ∧ c.rest ≠ [] then
    let text := read ++ gap ++ c.rest.take n
    let behind := c.skip n
    let gap := behind.rest.takeWhile isSpaceOrBreak
    let next := behind.skip gap.length
    let broken := gap.any isBreak
    if gap = [] ∨ endsDocument gap next.rest ∨ next.peek = '#' ∨ (!inFlow && next.column < indent) then
      ⟨text, next, broken⟩
    else plainFrom inFlow indent text (fold gap) broken next
  else ⟨read, c, atLineStart⟩
termination_by c.rest.length
decreasing_by
  have h1 := Cursor.length_rest_skip_lt _h.1 _h.2
  simp only [Cursor.rest_skip, List.length_drop] at h1 ⊢
  omega

/-! ## Quoted scalars -/

/-- What single characters behind a backslash stand for. -/
def escapes : List (Char × Nat) :=
  [('0', 0), ('a', 7), ('b', 8), ('t', 9), ('\t', 9), ('n', 10), ('v', 11), ('f', 12), ('r', 13), ('e', 27), (' ', 32),
   ('"', 34), ('/', 47), ('\\', 92), ('N', 0x85), ('_', 0xA0), ('L', 0x2028), ('P', 0x2029)]

def escapeWidth? : Char → Option Nat
  | 'x' => some 2
  | 'u' => some 4
  | 'U' => some 8
  | _ => none

def unitOf (digits : List Char) (width : Nat) : Except Fault Nat :=
  match digits.mapM Text.hexDigit? with
  | some ds =>
    let n := Text.ofDigits 16 ds
    if ds.length < width then .error .unparsable
    else if 0x80000000 ≤ n then .error (.misuse .outOfRange)
    else if 0x110000 ≤ n then .error (.misuse (.misread .noCharacter))
    else .ok n
  | none => .error .unparsable

/-- The code units of an escape, from the text behind its backslash, and how many characters it takes.  A line break
behind a backslash is left out with the white space that follows, but for further breaks. -/
def escape (s : List Char) : Except Fault (List Nat × Nat) :=
  match s with
  | [] => .error .unparsable
  | c :: rest =>
    match escapes.lookup c, escapeWidth? c with
    | some unit, _ => .ok ([unit], 1)
    | none, some width => do
      let unit ← unitOf (rest.take width) width
      return ([unit], width + 1)
    | none, none =>
      if isBreak c then
        let gap := s.takeWhile isGap
        if endsDocument gap (s.drop gap.length) then .error .unparsable
        else .ok (((breaksOf gap).drop 1).map Char.toNat, gap.length)
      else .error .unparsable

/-- The rest of a quoted scalar behind its opening quote.  `read` holds the code units up to here, last first. -/
def quotedFrom (double : Bool) (read : List Nat) (c : Cursor) : Except Fault (String × Cursor) :=
  match _h : c.rest with
  | [] => .error .unparsable
  | ch :: rest =>
    if double && ch == '\\' then
      match escape rest with
      | .error e => .error e
      | .ok (units, n) => quotedFrom double (units.reverse ++ read) (c.skip (n + 1))
    else if double && ch == '"' then .ok (Text.ofUnits read.reverse, c.skip 1)
    else if !double && ch == '\'' then
      if rest.head? = some '\'' then quotedFrom double ('\''.toNat :: read) (c.skip 2)
      else .ok (Text.ofUnits read.reverse, c.skip 1)
    else if isGap ch then
      let gap := rest.takeWhile isGap
      let next := c.skip (gap.length + 1)
      if next.rest = [] ∨ endsDocument (ch :: gap) next.rest then .error .unparsable
      else quotedFrom double (((fold (ch :: gap)).map Char.toNat).reverse ++ read) next
    else quotedFrom double (ch.toNat :: read) (c.skip 1)
termination_by c.rest.length
decreasing_by all_goals exact Cursor.length_rest_skip_lt (by omega) (by simp [_h])

/-! ## Block scalars -/

/-- What becomes of the line breaks at the end of a block. -/
inductive Chomping where
  | strip | clip | keep
  deriving DecidableEq, Repr

def blockIndicators (a b : Char) : Chomping × Option Nat × Nat :=
  let chomping? (c : Char) := if c = '+' then some Chomping.keep else if c = '-' then some .strip else none
  match chomping? a, Text.hexDigit? b with
  | some k, _ => if b.isDigit then (k, some (b.toNat - 48), 2) else (k, none, 1)
  | none, _ =>
    if a.isDigit then
      match chomping? b with
      | some k => (k, some (a.toNat - 48), 2)
      | none => (.clip, some (a.toNat - 48), 1)
    else (.clip, none, 0)

def skipLineEnd (c : Cursor) : Except Fault Cursor :=
  let c := (c.skipWhile (· == ' ')).skipComment
  if endsLine c.peek then .ok c.skipBreak else .error .unparsable

/-- The greatest width of a run of spaces, where a line with `run` spaces comes first. -/
def widest (run : Nat) : List Char → Nat
  | [] => run
  | c :: rest => if c = ' ' then widest (run + 1) rest else max run (widest 0 rest)

/-- The length of the white space before a line indented by `indent`: blank lines, and spaces up to the indentation. -/
def blankLength (indent : Nat) : Nat → List Char → Nat
  | _, [] => 0
  | column, c :: rest =>
    if c = ' ' then (if column < indent then blankLength indent (column + 1) rest + 1 else 0)
    else if isBreak c then blankLength indent 0 rest + 1
    else 0

structure Block where
  text : List Char
  /-- The break behind the last line. -/
  lastBreak : List Char
  /-- The breaks of the blank lines that follow. -/
  breaks : List Char
  cursor : Cursor

def atBlockLine (indent : Nat) (c : Cursor) : Bool := c.column == indent && !c.rest.isEmpty

def lineLength (s : List Char) : Nat := (s.takeWhile (fun c => !isBreak c)).length

theorem lineLength_add_breakLength_pos {s : List Char} (h : s ≠ []) :
    0 < lineLength s + breakLength (s.drop (lineLength s)) := by
  match s, h with
  | c :: rest, _ =>
    by_cases hc : isBreak c = true
    · have := breakLength_pos hc rest
      simp only [lineLength, List.takeWhile_cons, hc, Bool.not_true, Bool.false_eq_true, if_false, List.length_nil,
        List.drop_zero]
      omega
    · simp only [lineLength, List.takeWhile_cons, hc, Bool.not_false, if_true, List.length_cons]
      omega

/-- Reads the lines of a block.  `read` is the text up to here, `breaks` those of the blank lines before.  A folded block
joins two lines by a space, unless one of them begins with white space or blank lines are between. -/
def blockLines (folded : Bool) (indent : Nat) (read breaks : List Char) (c : Cursor) : Block :=
  if _h : atBlockLine indent c = true then
    let n := lineLength c.rest
    let m := breakLength (c.rest.drop n)
    let lastBreak := breaksOf ((c.rest.drop n).take m)
    let below := c.skip (n + m)
    let blank := blankLength indent below.column below.rest
    let next := below.skip blank
    let text := read ++ breaks ++ c.rest.take n
    let breaks := breaksOf (below.rest.take blank)
    if atBlockLine indent next then
      let joined := folded && lastBreak == ['\n'] && !isGap c.peek && !isGap next.peek
      blockLines folded indent (text ++ (if !joined then lastBreak else if breaks = [] then [' '] else [])) breaks next
    else ⟨text, lastBreak, breaks, next⟩
  else ⟨read, [], breaks, c⟩
termination_by c.rest.length
decreasing_by
  have hc : c.rest ≠ [] := by simp_all [atBlockLine]
  have h1 := Cursor.length_rest_skip_lt (lineLength_add_breakLength_pos hc) hc
  simp only [Cursor.rest_skip, List.length_drop] at h1 ⊢
  omega

/-- A block scalar behind its mark, below a line indented by `indent`. -/
def block (folded : Bool) (indent : Int) (c : Cursor) : Except Fault (List Char × Cursor) := do
  let (chomping, increment, n) := blockIndicators c.peek (c.peek 1)
  let c := c.skip n
  if increment = some 0 ∨ !endsProperty c.peek then throw .unparsable
  let c ← skipLineEnd c
  let least := max 1 (indent + 1).toNat
  let (width, blank) := match increment with
    | some k => (least + k - 1, blankLength (least + k - 1) c.column c.rest)
    | none =>
      let gap := c.rest.takeWhile isSpaceOrBreak
      (max least (widest 0 gap), gap.length)
  let b := blockLines folded width [] (breaksOf (c.rest.take blank)) (c.skip blank)
  let ending := match chomping with
    | .strip => []
    | .clip => b.lastBreak
    | .keep => b.lastBreak ++ b.breaks
  return (b.text ++ ending, b.cursor)

end Provision.Yaml
