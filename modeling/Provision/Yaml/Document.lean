import Provision.Yaml.Implicit
import Provision.Yaml.Scan
/-!
# Putting a document together

A tree is put together from tokens.  An anchor names the tree behind it, which an alias repeats; an anchor is set once.  A
value or an item that is not written is an empty scalar.  A text holds one document at most.
-/
namespace Provision.Yaml

structure Reading where
  tokens : List Token
  /-- Why there are no more tokens. -/
  fault : Option Fault
  /-- The trees with anchors; one that is not complete is not known yet. -/
  anchors : List (String × Option Tree) := []
  /-- The start of the tags with a handle. -/
  handles : List (String × String) := []

abbrev Assembly := StateT Reading (Except Fault)

namespace Assembly

def peek : Assembly (Option Token) := do
  let s ← get
  match s.tokens, s.fault with
  | t :: _, _ => return some t
  | [], none => return none
  | [], some f => throw f

def drop : Assembly Unit := modify (fun s => { s with tokens := s.tokens.tail })

/-- Goes over a token where it comes next, and tells whether it did. -/
def accept (t : Token) : Assembly Bool := do
  if (← peek) = some t then
    drop
    return true
  else return false

/-! ## Properties of a node -/

def anchor? : Assembly (Option String) := do
  match ← peek with
  | some (.anchor name) =>
    drop
    return some name
  | _ => return none

def tag? : Assembly (Option (Option String × String)) := do
  match ← peek with
  | some (.tag handle rest) =>
    drop
    return some (handle, rest)
  | _ => return none

/-- An anchor and a tag, in any order. -/
def properties : Assembly (Option String × Option (Option String × String)) := do
  match ← anchor? with
  | some name => return (some name, ← tag?)
  | none =>
    match ← tag? with
    | none => return (none, none)
    | some tag => return (← anchor?, some tag)

def address (tag : Option String × String) : Assembly String := do
  match tag.1 with
  | none => return tag.2
  | some handle =>
    match (← get).handles.lookup handle with
    | some start => return start ++ tag.2
    | none => throw .unparsable

/-- The address that leaves the type open. -/
def openAddress : String := "!"

/-- The tag of a collection, which may be left open. -/
def collectionTag (address : Option String) (otherwise : Tag) : Tag :=
  match address with
  | none => otherwise
  | some a => if a = openAddress then otherwise else .ofAddress a

/-- The tag of a scalar: a plain one without a tag, and every one with an open tag, is of the type that its form shows. -/
def scalarTag (address : Option String) (text : String) (isPlain : Bool) : Tag :=
  match address with
  | none => if isPlain then Implicit.tagOf text else .text
  | some a => if a = openAddress then Implicit.tagOf text else .ofAddress a

/-! ## Anchors -/

def declare (name : Option String) : Assembly Unit := do
  match name with
  | none => return
  | some n =>
    let s ← get
    if (s.anchors.lookup n).isSome then throw .unparsable
    set { s with anchors := (n, none) :: s.anchors }

def complete (name : Option String) (t : Tree) : Assembly Tree := do
  match name with
  | none => return t
  | some n =>
    modify (fun s => { s with anchors := (n, some t) :: s.anchors })
    return t

def repeated (name : String) : Assembly Tree := do
  match (← get).anchors.lookup name with
  | some (some t) => return t
  | some none => return .around
  | none => throw .unparsable

/-! ## Nodes -/

/-- The node that comes next, or the empty one before tokens that begin none. -/
def orEmpty (next : Option Token) (ends : List Token) (read : Assembly Tree) : Assembly Tree :=
  match next with
  | some t => if ends.contains t then pure .empty else read
  | none => read

mutual

/-- The node that comes next.  `inBlock` tells whether it may be a block, `atKey` whether it may be a sequence without an
indentation of its own.  Between two nested calls lies a token, so three steps a token are enough. -/
def node : Nat → Bool → Bool → Assembly Tree
  | 0, _, _ => throw .unparsable
  | fuel + 1, inBlock, atKey => do
    if let some (.alias name) ← peek then
      drop
      return ← repeated name
    let (name, tag) ← properties
    let tag ← tag.mapM address
    let collection (read : Assembly Tree) : Assembly Tree := do
      declare name
      complete name (← read)
    match ← peek with
    | some (.scalar text isPlain) =>
      drop
      declare name
      complete name (.scalar (scalarTag tag text isPlain) text)
    | some .flowSequence =>
      drop
      collection (do return .sequence (collectionTag tag .sequence) (← flowItems fuel true))
    | some .flowMapping =>
      drop
      collection (do return .mapping (collectionTag tag .map) (← flowEntries fuel true))
    | next =>
      if next = some .blockEntry ∧ atKey then
        collection (do return .sequence (collectionTag tag .sequence) (← plainItems fuel))
      else if next = some .blockSequence ∧ inBlock then
        drop
        collection (do return .sequence (collectionTag tag .sequence) (← blockItems fuel))
      else if next = some .blockMapping ∧ inBlock then
        drop
        collection (do return .mapping (collectionTag tag .map) (← blockEntries fuel))
      else if name.isSome ∨ tag.isSome then
        declare name
        complete name (.scalar (scalarTag tag "" true) "")
      else throw .unparsable

def blockItems : Nat → Assembly (List Tree)
  | 0 => throw .unparsable
  | fuel + 1 => do
    if ← accept .blockEntry then
      let item ← orEmpty (← peek) [.blockEntry, .blockEnd] (node fuel true false)
      return item :: (← blockItems fuel)
    else if ← accept .blockEnd then return []
    else throw .unparsable

/-- The items of a sequence that is no block of its own. -/
def plainItems : Nat → Assembly (List Tree)
  | 0 => throw .unparsable
  | fuel + 1 => do
    if ← accept .blockEntry then
      let item ← orEmpty (← peek) [.blockEntry, .key, .value, .blockEnd] (node fuel true false)
      return item :: (← plainItems fuel)
    else return []

def blockEntries : Nat → Assembly (List (Tree × Tree))
  | 0 => throw .unparsable
  | fuel + 1 => do
    let ends := [Token.key, .value, .blockEnd]
    if ← accept .key then
      let key ← orEmpty (← peek) ends (node fuel true true)
      let value ← if ← accept .value then orEmpty (← peek) ends (node fuel true true) else pure .empty
      return (key, value) :: (← blockEntries fuel)
    else if ← accept .blockEnd then return []
    else throw .unparsable

/-- The items between brackets.  An item with a key is a mapping of one entry. -/
def flowItems : Nat → Bool → Assembly (List Tree)
  | 0, _ => throw .unparsable
  | fuel + 1, first => do
    if ← accept .flowSequenceEnd then return []
    if !first then
      if !(← accept .flowEntry) then throw .unparsable
    if ← accept .key then
      let key ← orEmpty (← peek) [.value, .flowEntry, .flowSequenceEnd] (node fuel false false)
      let value ← if ← accept .value then orEmpty (← peek) [.flowEntry, .flowSequenceEnd] (node fuel false false)
        else pure .empty
      return .mapping .map [(key, value)] :: (← flowItems fuel false)
    else if ← accept .flowSequenceEnd then return []
    else
      let item ← node fuel false false
      return item :: (← flowItems fuel false)

/-- The entries between braces.  An entry without a mark is a key without a value. -/
def flowEntries : Nat → Bool → Assembly (List (Tree × Tree))
  | 0, _ => throw .unparsable
  | fuel + 1, first => do
    if ← accept .flowMappingEnd then return []
    if !first then
      if !(← accept .flowEntry) then throw .unparsable
    if ← accept .key then
      let key ← orEmpty (← peek) [.value, .flowEntry, .flowMappingEnd] (node fuel false false)
      let value ← if ← accept .value then orEmpty (← peek) [.flowEntry, .flowMappingEnd] (node fuel false false)
        else pure .empty
      return (key, value) :: (← flowEntries fuel false)
    else if ← accept .flowMappingEnd then return []
    else
      let key ← node fuel false false
      return (key, .empty) :: (← flowEntries fuel false)

end

/-! ## Documents -/

def usualHandles : List (String × String) := [("!", "!"), ("!!", Tag.commonStart)]

/-- The directives of a document: one version at most, and every handle once. -/
def directives : List Token → Bool → List (String × String) → Except Fault (List Token × List (String × String))
  | .directive (.version major) :: rest, versioned, handles =>
    if versioned ∨ major ≠ 1 then .error .unparsable else directives rest true handles
  | .directive (.handle name start) :: rest, versioned, handles =>
    if (handles.lookup name).isSome then .error .unparsable else directives rest versioned ((name, start) :: handles)
  | .directive .reserved :: rest, versioned, handles => directives rest versioned handles
  | tokens, _, handles => .ok (tokens, handles ++ usualHandles)

def document : Assembly (Option Tree) := do
  let s ← get
  let fuel := 3 * s.tokens.length + 3
  match ← peek with
  | none => return none
  | some (.directive _) | some .documentStart =>
    let (tokens, handles) ← directives s.tokens false []
    set { s with tokens := tokens, handles := handles }
    if !(← accept .documentStart) then throw .unparsable
    match ← peek with
    | none | some (.directive _) | some .documentStart | some .documentEnd => return some .empty
    | _ => return some (← node fuel true false)
  | _ =>
    set { s with handles := usualHandles }
    return some (← node fuel true false)

/-- Nothing but the marks of its end follows a document. -/
def finish : List Token → Option Fault → Except Fault Unit
  | [], none => .ok ()
  | [], some f => .error f
  | .documentEnd :: rest, fault => finish rest fault
  | tokens, fault => do
    let (rest, _) ← directives tokens false []
    throw (if rest = [] then fault.getD .unparsable else .unparsable)

end Assembly

def Tree.ofText (s : List Char) : Except Fault (Option Tree) := do
  let tokens := Tokens.ofText s
  let (tree, rest) ← Assembly.document.run { tokens := tokens.list, fault := tokens.fault }
  if tree.isSome then Assembly.finish rest.tokens rest.fault
  return tree

end Provision.Yaml
