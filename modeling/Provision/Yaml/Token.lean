import Provision.Yaml.Scalar
/-!
# Tokens of a YAML text

The pieces of which a document is put together, and how those of more than one character are read: directives, names
of anchors and aliases, and tags.
-/
namespace Provision.Yaml

inductive Directive where
  /-- The language that the document is written in. -/
  | version (major : Nat)
  /-- The start of all tags that are written with a handle. -/
  | handle (name start : String)
  | reserved
  deriving DecidableEq, Repr

inductive Token where
  | directive (d : Directive)
  | documentStart
  | documentEnd
  /-- A sequence or a mapping begins by indentation, and ends. -/
  | blockSequence
  | blockMapping
  | blockEnd
  /-- A sequence or a mapping in brackets. -/
  | flowSequence
  | flowSequenceEnd
  | flowMapping
  | flowMappingEnd
  /-- What begins an item of a block, and what separates items in brackets. -/
  | blockEntry
  | flowEntry
  | key
  | value
  | alias (name : String)
  | anchor (name : String)
  /-- A tag is written out, or begins with a handle. -/
  | tag (handle : Option String) (rest : String)
  | scalar (text : String) (isPlain : Bool)
  deriving DecidableEq, Repr

/-! ## Names and tags -/

def anchorName (c : Cursor) : Except Fault (String × Cursor) :=
  let name := c.rest.takeWhile isWord
  let next := c.skip name.length
  if name ≠ [] ∧ (endsIndicator next.peek ∨ "?:,]\x7d%@`".toList.contains next.peek) then
    .ok (String.ofList name, next)
  else .error .unparsable

/-- The bytes of an address at the start of a text, and how many characters they take.  A per cent sign and two
hexadecimal digits are one byte. -/
def addressBytes : List Char → Except Fault (List UInt8 × Nat)
  | [] => .ok ([], 0)
  | '%' :: a :: b :: rest =>
    match Text.hexDigit? a, Text.hexDigit? b with
    | some x, some y => do
      let (bytes, n) ← addressBytes rest
      return (UInt8.ofNat (x * 16 + y) :: bytes, n + 3)
    | _, _ => .error .unparsable
  | c :: rest =>
    if c = '%' then .error .unparsable
    else if isAddress c then do
      let (bytes, n) ← addressBytes rest
      return (UInt8.ofNat c.toNat :: bytes, n + 1)
    else .ok ([], 0)

/-- An address: it has a character at least, and its bytes are a text. -/
def address (c : Cursor) : Except Fault (String × Cursor) := do
  let (bytes, n) ← addressBytes c.rest
  match String.fromUTF8? (ByteArray.mk bytes.toArray) with
  | some s => if n = 0 then throw .unparsable else return (s, c.skip n)
  | none => throw .unparsable

/-- A handle: an exclamation mark, or a name between two. -/
def handle (c : Cursor) : Except Fault (String × Cursor) :=
  if c.peek != '!' then .error .unparsable
  else if c.peek 1 = ' ' then .ok ("!", c.skip 1)
  else
    let name := (c.rest.drop 1).takeWhile isWord
    if c.peek (name.length + 1) = '!' then .ok ("!" ++ String.ofList name ++ "!", c.skip (name.length + 2))
    else .error .unparsable

def tag (c : Cursor) : Except Fault (Token × Cursor) := do
  let (token, next) ←
    if c.peek 1 = '<' then do
      let (suffix, next) ← address (c.skip 2)
      if next.peek != '>' then throw .unparsable
      pure (Token.tag none suffix, next.skip 1)
    else if endsIndicator (c.peek 1) then pure (Token.tag none "!", c.skip 1)
    else if (((c.rest.drop 1).takeWhile (fun ch => !endsProperty ch)).contains '!') then do
      let (name, next) ← handle c
      let (suffix, next) ← address next
      pure (Token.tag (some name) suffix, next)
    else do
      let (suffix, next) ← address (c.skip 1)
      pure (Token.tag (some "!") suffix, next)
  if endsProperty next.peek then return (token, next) else throw .unparsable

/-! ## Directives -/

def versionNumber (c : Cursor) : Except Fault (Nat × Cursor) :=
  let digits := c.rest.takeWhile Char.isDigit
  if digits = [] then .error .unparsable
  else if Text.maxDigits < digits.length then .error (.misuse (.misread (.tooManyDigits digits.length)))
  else .ok (Text.ofDigits 10 (digits.map (fun d => d.toNat - 48)), c.skip digits.length)

def skipSpaces (c : Cursor) : Cursor := c.skipWhile (· == ' ')

/-- A version: two numbers with a point between. -/
def version (c : Cursor) : Except Fault (Directive × Cursor) := do
  let (major, next) ← versionNumber c
  if next.peek != '.' then throw .unparsable
  let (_, next) ← versionNumber (next.skip 1)
  if !endsProperty next.peek then throw .unparsable
  return (.version major, next)

/-- A handle, and what it stands for. -/
def handleStart (c : Cursor) : Except Fault (Directive × Cursor) := do
  let (name, next) ← handle c
  if next.peek != ' ' then throw .unparsable
  let (start, next) ← address (skipSpaces next)
  if !endsProperty next.peek then throw .unparsable
  return (.handle name start, next)

/-- A directive behind its per cent sign, up to the end of its line. -/
def directive (c : Cursor) : Except Fault (Token × Cursor) := do
  let name := c.rest.takeWhile isWord
  let next := c.skip name.length
  if name = [] ∨ !endsProperty next.peek then throw .unparsable
  let (d, next) ←
    if name = "YAML".toList then version (skipSpaces next)
    else if name = "TAG".toList then handleStart (skipSpaces next)
    else pure (Directive.reserved, next.skipWhile (fun ch => !isBreak ch))
  let next ← skipLineEnd next
  return (.directive d, next)

end Provision.Yaml
