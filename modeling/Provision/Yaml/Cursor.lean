import Provision.Fault
import Provision.Yaml.Char
/-!
# Places in a YAML text

A cursor is the rest of a text and where that rest begins.  `skip` drops characters from the rest and nothing else
(`rest_skip`).  `fold` is how the white space between two words of one scalar is read, and `breaksOf` finds its line breaks.
-/
namespace Provision.Yaml

def breakLength : List Char → Nat
  | '\r' :: '\n' :: _ => 2
  | c :: _ => if isBreak c then 1 else 0
  | [] => 0

theorem breakLength_pos {c : Char} (h : isBreak c = true) (rest : List Char) : 0 < breakLength (c :: rest) := by
  unfold breakLength
  split
  · omega
  · simp_all
  · simp_all

structure Cursor where
  rest : List Char
  index : Nat := 0
  line : Nat := 0
  column : Nat := 0

namespace Cursor

/-- Goes on by one character.  A byte order mark takes no column. -/
def step (c : Cursor) : Cursor :=
  match c.rest with
  | [] => c
  | ch :: rest =>
    if isBreak ch && !(ch == '\r' && rest.head? == some '\n') then ⟨rest, c.index + 1, c.line + 1, 0⟩
    else ⟨rest, c.index + 1, c.line, if ch = '\uFEFF' then c.column else c.column + 1⟩

def skip : Nat → Cursor → Cursor
  | 0, c => c
  | n + 1, c => skip n c.step

theorem rest_step (c : Cursor) : c.step.rest = c.rest.drop 1 := by
  unfold step
  split
  · simp [*]
  · split <;> simp [*]

theorem rest_skip (n : Nat) (c : Cursor) : (c.skip n).rest = c.rest.drop n := by
  induction n generalizing c with
  | zero => rfl
  | succ n ih => rw [skip, ih, rest_step, List.drop_drop, Nat.add_comm]

theorem length_rest_skip_lt {c : Cursor} {n : Nat} (hn : 0 < n) (hc : c.rest ≠ []) :
    (c.skip n).rest.length < c.rest.length := by
  have := List.length_pos_iff.2 hc
  rw [rest_skip, List.length_drop]
  omega

/-- The character some places ahead; NUL at the end. -/
def peek (c : Cursor) (n : Nat := 0) : Char := (c.rest.drop n).headD '\x00'

def skipWhile (p : Char → Bool) (c : Cursor) : Cursor := c.skip (c.rest.takeWhile p).length

def skipBreak (c : Cursor) : Cursor := c.skip (breakLength c.rest)

def skipComment (c : Cursor) : Cursor := if c.peek == '#' then c.skipWhile (fun ch => !isBreak ch) else c

end Cursor

/-- The line breaks of a text; all but the two separators of Unicode count as line feeds. -/
def breaksOf : List Char → List Char
  | [] => []
  | '\r' :: '\n' :: rest => '\n' :: breaksOf rest
  | c :: rest =>
    if c = '\u2028' ∨ c = '\u2029' then c :: breaksOf rest
    else if isBreak c then '\n' :: breaksOf rest
    else breaksOf rest

/-- The white space between two words as it is read: within a line it stands, a single break is a space, of several the
first is left out. -/
def fold (gap : List Char) : List Char :=
  match breaksOf gap with
  | [] => gap
  | '\n' :: [] => [' ']
  | '\n' :: more => more
  | breaks => breaks

def startsMarker (mark : Char) (s : List Char) : Bool :=
  s.take 3 == [mark, mark, mark] && endsIndicator ((s.drop 3).headD '\x00')

/-- Whether a document ends after some white space: its last line begins with a marker. -/
def endsDocument (gap rest : List Char) : Bool :=
  gap.getLast?.any isBreak && (startsMarker '-' rest || startsMarker '.' rest)

end Provision.Yaml
