import Provision.Yaml.Token
/-!
# Cutting a YAML text into tokens

Indentation opens and closes blocks, and a key may be known as one only by the colon behind it.  So a place where a key
could begin is kept as a candidate until its line ends; a colon then puts the token `key` there, and before it the start
of a mapping if the key is indented more than the block around it.  Every token but `key` and those of blocks takes a
character, so the length of the text bounds the number of steps.
-/
namespace Provision.Yaml

/-- A place where a key could have begun. -/
structure Candidate where
  /-- How many brackets are open. -/
  depth : Nat
  /-- Whether nothing but a key can stand there. -/
  required : Bool
  /-- The number of tokens before it. -/
  position : Nat
  index : Nat
  line : Nat
  column : Nat

structure Scan where
  cursor : Cursor
  /-- How many brackets are open. -/
  depth : Nat := 0
  /-- The column of the innermost block; none is open at the column before the first. -/
  indent : Int := -1
  /-- The columns of the blocks around it. -/
  outer : List Int := []
  /-- Whether a key without a mark may begin here. -/
  mayStartKey : Bool := true
  candidates : List Candidate := []
  tokens : Array Token := #[]

namespace Scan

def push (s : Scan) (t : Token) : Scan := { s with tokens := s.tokens.push t }

def take (s : Scan) (t : Token) (next : Cursor) : Scan := { s with tokens := s.tokens.push t, cursor := next }

/-! ## Candidates -/

/-- Whether a candidate is lost: a key stands on one line and has at most 1024 characters. -/
def isLost (s : Scan) (k : Candidate) : Bool := k.line != s.cursor.line || k.index + 1024 < s.cursor.index

def prune (s : Scan) : Except Fault Scan :=
  if s.candidates.any (fun k => s.isLost k && k.required) then .error .unparsable
  else .ok { s with candidates := s.candidates.filter (fun k => !s.isLost k) }

/-- Forgets the candidate between the innermost brackets: what follows is no key. -/
def forget (s : Scan) : Except Fault Scan :=
  if s.candidates.any (fun k => k.depth == s.depth && k.required) then .error .unparsable
  else .ok { s with candidates := s.candidates.filter (fun k => k.depth != s.depth) }

/-- Makes this place a candidate, if a key may begin here. -/
def note (s : Scan) : Except Fault Scan :=
  if s.mayStartKey then do
    let s ← s.forget
    let c := s.cursor
    let required := s.depth == 0 && s.indent == c.column
    return { s with candidates := ⟨s.depth, required, s.tokens.size, c.index, c.line, c.column⟩ :: s.candidates }
  else .ok s

/-! ## Blocks -/

def closedAt (column : Int) : Int → List Int → Nat × Int × List Int
  | indent, [] => (0, indent, [])
  | indent, i :: outer =>
    if column < indent then
      let (n, rest) := closedAt column i outer
      (n + 1, rest)
    else (0, indent, i :: outer)

/-- Ends the blocks that are indented more than a column.  Between brackets indentation has no meaning. -/
def close (s : Scan) (column : Int) : Scan :=
  if s.depth != 0 then s
  else
    let (n, indent, outer) := closedAt column s.indent s.outer
    { s with indent := indent, outer := outer, tokens := s.tokens ++ Array.replicate n .blockEnd }

/-- Opens a block at a column that is indented more than the block around it; its first token stands at a position. -/
def openBlock (s : Scan) (column : Nat) (t : Token) (position : Nat) : Scan :=
  if s.depth == 0 && s.indent < column then
    { s with indent := column, outer := s.indent :: s.outer, tokens := s.tokens.insertIdxIfInBounds position t }
  else s

/-- A mark that stands for itself at the start of an item of a block.  It has to be the first on its line. -/
def openItem (s : Scan) (block : Token) : Except Fault Scan :=
  if s.depth != 0 then .ok s
  else if s.mayStartKey then .ok (s.openBlock s.cursor.column block s.tokens.size)
  else .error .unparsable

/-! ## Steps -/

/-- The length of white space and comments; `inComment` tells whether a comment goes on. -/
def gapLength (inComment : Bool) : List Char → Nat
  | [] => 0
  | c :: rest =>
    if isBreak c then gapLength false rest + 1
    else if inComment || c == ' ' then gapLength inComment rest + 1
    else if c == '#' then gapLength true rest + 1
    else 0

/-- Goes over white space and comments.  At the start of a line a key may begin. -/
def skipGap (s : Scan) : Scan :=
  let c := if s.cursor.index = 0 ∧ s.cursor.peek = '\uFEFF' then s.cursor.step else s.cursor
  let next := c.skip (gapLength false c.rest)
  { s with cursor := next, mayStartKey := s.mayStartKey || (s.depth == 0 && next.line != c.line) }

/-- A directive or a mark of a document ends all blocks. -/
def startOver (s : Scan) : Except Fault Scan := do
  let s ← (s.close (-1)).forget
  return { s with mayStartKey := false }

def openFlow (s : Scan) (t : Token) : Except Fault Scan := do
  let s ← s.note
  return { s.take t (s.cursor.skip 1) with depth := s.depth + 1, mayStartKey := true }

def closeFlow (s : Scan) (t : Token) : Except Fault Scan := do
  let s ← s.forget
  return { s.take t (s.cursor.skip 1) with depth := s.depth - 1, mayStartKey := false }

def flowEntry (s : Scan) : Except Fault Scan := do
  let s ← s.forget
  return { s.take .flowEntry (s.cursor.skip 1) with mayStartKey := true }

def blockEntry (s : Scan) : Except Fault Scan := do
  let s ← s.openItem .blockSequence
  let s ← s.forget
  return { s.take .blockEntry (s.cursor.skip 1) with mayStartKey := true }

def key (s : Scan) : Except Fault Scan := do
  let s ← s.openItem .blockMapping
  let s ← s.forget
  return { s.take .key (s.cursor.skip 1) with mayStartKey := s.depth == 0 }

/-- A colon makes a key of the candidate, or stands for a value without one. -/
def value (s : Scan) : Except Fault Scan := do
  match s.candidates.find? (fun k => k.depth == s.depth) with
  | some k =>
    let s := { s with candidates := s.candidates.filter (fun k => k.depth != s.depth),
                      tokens := s.tokens.insertIdxIfInBounds k.position .key }
    let s := s.openBlock k.column .blockMapping k.position
    return { s.take .value (s.cursor.skip 1) with mayStartKey := false }
  | none =>
    let s ← s.openItem .blockMapping
    let s ← s.forget
    return { s.take .value (s.cursor.skip 1) with mayStartKey := s.depth == 0 }

def property (s : Scan) (read : Cursor → Except Fault (Token × Cursor)) : Except Fault Scan := do
  let s ← s.note
  let (t, next) ← read s.cursor
  return { s.take t next with mayStartKey := false }

def quoted (s : Scan) (double : Bool) : Except Fault Scan :=
  s.property (fun c => do
    let (text, next) ← quotedFrom double [] (c.skip 1)
    return (.scalar text false, next))

def blockScalar (s : Scan) (folded : Bool) : Except Fault Scan := do
  let s ← s.forget
  let (text, next) ← block folded s.indent (s.cursor.skip 1)
  return { s.take (.scalar (String.ofList text) false) next with mayStartKey := true }

def plain (s : Scan) : Except Fault Scan := do
  let s ← s.note
  let p := plainFrom (s.depth != 0) (s.indent + 1) [] [] false s.cursor
  return { s.take (.scalar (String.ofList p.text) true) p.cursor with mayStartKey := p.atLineStart }

def startsPlain (inFlow : Bool) (c next : Char) : Bool :=
  !(endsIndicator c || isIndicator c) ||
    (!endsIndicator next && (c == '-' || (!inFlow && (c == '?' || c == ':'))))

def token (s : Scan) (ch : Char) : Except Fault Scan :=
  let c := s.cursor
  let inFlow := s.depth != 0
  let standsAlone := endsIndicator (c.peek 1)
  if ch == '%' && c.column == 0 then do
    let s ← s.startOver
    let (t, next) ← directive (c.skip 1)
    return s.take t next
  else if c.column == 0 && startsMarker '-' c.rest then do
    let s ← s.startOver
    return s.take .documentStart (c.skip 3)
  else if c.column == 0 && startsMarker '.' c.rest then do
    let s ← s.startOver
    return s.take .documentEnd (c.skip 3)
  else if ch == '[' then s.openFlow .flowSequence
  else if ch == '\x7b' then s.openFlow .flowMapping
  else if ch == ']' then s.closeFlow .flowSequenceEnd
  else if ch == '\x7d' then s.closeFlow .flowMappingEnd
  else if ch == ',' then s.flowEntry
  else if ch == '-' && standsAlone then s.blockEntry
  else if ch == '?' && (inFlow || standsAlone) then s.key
  else if ch == ':' && (inFlow || standsAlone) then s.value
  else if ch == '*' then s.property (fun c => (anchorName (c.skip 1)).map (fun (n, next) => (.alias n, next)))
  else if ch == '&' then s.property (fun c => (anchorName (c.skip 1)).map (fun (n, next) => (.anchor n, next)))
  else if ch == '!' then s.property tag
  else if ch == '|' && !inFlow then s.blockScalar false
  else if ch == '>' && !inFlow then s.blockScalar true
  else if ch == '\'' then s.quoted false
  else if ch == '"' then s.quoted true
  else if startsPlain inFlow ch (c.peek 1) then s.plain
  else .error .unparsable

/-- What is left of the tokens where the text cannot be read on: those behind which no key can turn up any more. -/
def settled (s : Scan) : List Token :=
  s.tokens.toList.take ((s.candidates.filter (fun k => !s.isLost k)).foldl (fun n k => min n k.position) s.tokens.size)

end Scan

structure Tokens where
  list : List Token
  fault : Option Fault := none

namespace Tokens

def scanFrom : Nat → Scan → Tokens
  | 0, s => ⟨s.settled, some .unparsable⟩
  | fuel + 1, s =>
    let step : Except Fault (Scan × Bool) := do
      let next ← s.skipGap.prune
      let next := next.close next.cursor.column
      match next.cursor.rest with
      | [] =>
        let next ← (next.close (-1)).forget
        return (next, false)
      | ch :: _ =>
        let next ← next.token ch
        return (next, true)
    match step with
    | .error f => ⟨s.settled, some f⟩
    | .ok (next, false) => ⟨next.tokens.toList, none⟩
    | .ok (next, true) => scanFrom fuel next

def ofText (s : List Char) : Tokens :=
  if s.all isAllowed then scanFrom (s.length + 1) { cursor := ⟨s, 0, 0, 0⟩ } else ⟨[], some .unparsable⟩

end Tokens

end Provision.Yaml
