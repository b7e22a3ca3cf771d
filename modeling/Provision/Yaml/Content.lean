import Provision.Fault
import Provision.Yaml.Binary
import Provision.Yaml.Number
import Provision.Yaml.Stamp
import Provision.Yaml.Document
/-!
# The value of a YAML tree

A scalar is read by its tag.  A mapping takes in the entries of those under its merge keys, before its own; keys have to
be scalars.  Of several faults in a tree the one nearest to its root is reported, and of those at one depth the first.
That a value holds itself is no such fault: it is made, but has no end.
-/
namespace Provision.Yaml

/-! ## Scalars -/

namespace Scalar

def withoutBars (s : String) : List Char := s.toList.filter (· != '_')

def orFault {α : Type} (m : Misuse) : Option α → Except Fault α
  | some a => .ok a
  | none => .error (.misuse m)

def bool (s : String) : Except Fault Value :=
  let s := String.ofList (s.toList.map Char.toLower)
  if ["yes", "true", "on"].contains s then .ok (.bool true)
  else if ["no", "false", "off"].contains s then .ok (.bool false)
  else .error (.misuse .noField)

def integer (base : Nat) (s : List Char) : Except Fault Int := orFault (.misread (integerFault base s)) (integer? base s)

def number (s : List Char) : Except Fault Double := orFault (.misread (.notNumber (String.ofList s))) (float? s)

/-- The size of an integer behind its sign: the first characters tell the base. -/
def magnitude : List Char → Except Fault Int
  | [] => .error (.misuse .emptyScalar)
  | ['0'] => .ok 0
  | '0' :: 'b' :: rest => integer 2 rest
  | '0' :: 'x' :: rest => integer 16 rest
  | '0' :: rest => integer 8 ('0' :: rest)
  | s => if s.contains ':' then ofSixtieths <$> (sixtieths s).mapM (integer 10) else integer 10 s

def int (s : String) : Except Fault Value := do
  let s := withoutBars s
  if s = [] then throw (.misuse .emptyScalar)
  let (negative, rest) := unsigned s
  let n ← magnitude rest
  return .int (if negative then -n else n)

def float (s : String) : Except Fault Value := do
  let s := (withoutBars s).map Char.toLower
  if s = [] then throw (.misuse .emptyScalar)
  let (negative, rest) := unsigned s
  let size ←
    if rest = ".inf".toList then pure (.infinity false)
    else if rest = ".nan".toList then return .float .nan
    else if rest.contains ':' then do
      let parts ← (sixtieths rest).mapM number
      orFault .outOfRange (sumOfPlaces (.ofFields false 0) 1 parts.reverse)
    else number rest
  return .float (if negative then size.neg else size)

def binary (s : String) : Except Fault Value :=
  if s.toList.all (fun c => c.toNat < 128) then
    match Binary.decode s.toList with
    | some bytes => .ok (.bytes bytes)
    | none => .error .unparsable
  else .error .unparsable

def timestamp (s : String) : Except Fault Value := do
  let stamp ← orFault .noTextOperation (Stamp.ofChars? (Implicit.withoutLineFeed s).toList)
  stamp.value.mapError (fun cause => .misuse (.misread (.notInCalendar cause)))

def value (tag : Tag) (s : String) : Except Fault Value :=
  match tag with
  | .null => .ok .null
  | .bool => bool s
  | .int => int s
  | .float => float s
  | .binary => binary s
  | .timestamp => timestamp s
  | .text => .ok (.text s)
  | _ => .error .unparsable

end Scalar

/-! ## Faults by depth -/

/-- A result, or a fault and how deep below it lies. -/
abbrev ByDepth := Except (Nat × Fault)

namespace ByDepth

variable {α β γ : Type}

def ofExcept (x : Except Fault α) : ByDepth α := x.mapError (fun f => (0, f))

def fail (f : Fault) : ByDepth α := .error (0, f)

def below (x : ByDepth α) : ByDepth α := x.mapError (fun (n, f) => (n + 1, f))

/-- Two results, or the fault that lies higher; of two at one depth the first. -/
def both (f : α → β → γ) : ByDepth α → ByDepth β → ByDepth γ
  | .ok a, .ok b => .ok (f a b)
  | .ok _, .error e => .error e
  | .error e, .ok _ => .error e
  | .error d, .error e => .error (if e.1 < d.1 then e else d)

def all : List (ByDepth α) → ByDepth (List α)
  | [] => .ok []
  | x :: xs => both List.cons x (all xs)

end ByDepth

/-! ## Values that hold themselves -/

/-- What stands in a value for one around it.  No text denotes it, as a list is no item of a set. -/
def openEnd : Value := .set [.list []]

mutual

def isOpen : Value → Bool
  | .set [.list []] => true
  | .list vs => anyOpen vs
  | .pair k v => isOpen k || isOpen v
  | .map es => anyEntryOpen es
  | _ => false

def anyOpen : List Value → Bool
  | [] => false
  | v :: vs => isOpen v || anyOpen vs

def anyEntryOpen : List (Value × Value) → Bool
  | [] => false
  | (_, v) :: es => isOpen v || anyEntryOpen es

end

/-! ## Collections -/

namespace Tree

/-- A key whose value is known.  What lies below a collection does not matter: it cannot be a key. -/
def asKey : ByDepth Value → ByDepth Value
  | .ok v => if v.isKey then .ok v else ByDepth.fail .unparsable
  | .error (0, f) => .error (0, f)
  | .error (_ + 1, _) => ByDepth.fail .unparsable

def entriesOf (es : List (ByDepth Value × ByDepth Value)) : ByDepth (List (Value × Value)) :=
  ByDepth.all (es.map (fun e => ByDepth.both Prod.mk (asKey e.1) e.2))

/-- A collection as its tag has it, from its items. -/
def itemsAs (tag : Tag) (items : List (ByDepth Value)) (pairs : List (ByDepth Value)) : ByDepth Value :=
  match tag with
  | .sequence => (ByDepth.all items).below.map Value.list
  | .orderedMap | .pairs => (ByDepth.all pairs).below.map Value.list
  | .map | .set => (ByDepth.fail .unparsable).below
  | _ => ByDepth.fail .unparsable

mutual

def value : Tree → ByDepth Value
  | scalar tag text =>
    if tag.isCollection then (ByDepth.fail .unparsable).below else ByDepth.ofExcept (Scalar.value tag text)
  | sequence tag items => itemsAs tag (values items) (pairsOf items)
  | mapping tag entries =>
    match tag with
    | .map => (ByDepth.below ((merged entries).bind entriesOf)).map (fun es => .map (Value.Entries.ofPairs es))
    | .set =>
      (ByDepth.below ((merged entries).bind entriesOf)).map (fun es => .set ((Value.Entries.ofPairs es).map (·.1)))
    | .sequence | .orderedMap | .pairs => (ByDepth.fail .unparsable).below
    | .unknown | .merge | .default => ByDepth.fail .unparsable
    | .timestamp => ByDepth.fail (if (defaultText entries).isSome then .misuse .wrongOperand else .unparsable)
    | tag =>
      match defaultText entries with
      | some text => ByDepth.ofExcept (Scalar.value tag text)
      | none => ByDepth.fail .unparsable
  | around => .ok openEnd

def values : List Tree → List (ByDepth Value)
  | [] => []
  | t :: ts => t.value :: values ts

/-- Items that are mappings of one entry, as pairs. -/
def pairsOf : List Tree → List (ByDepth Value)
  | [] => []
  | mapping _ [(k, v)] :: ts => ByDepth.both Value.pair k.value v.value :: pairsOf ts
  | _ :: ts => ByDepth.fail .unparsable :: pairsOf ts

def merged (entries : List (Tree × Tree)) : ByDepth (List (ByDepth Value × ByDepth Value)) :=
  ByDepth.both (· ++ ·) (taken entries) (.ok (own entries))

/-- The entries that a mapping takes in.  A mapping that takes in itself gains nothing. -/
def taken : List (Tree × Tree) → ByDepth (List (ByDepth Value × ByDepth Value))
  | [] => .ok []
  | (k, v) :: es =>
    if k.tag = .merge then
      match v with
      | mapping _ fs => ByDepth.both (· ++ ·) (merged fs) (taken es)
      | sequence _ ts => ByDepth.both (· ++ ·) (takenAll ts) (taken es)
      | around => taken es
      | scalar _ _ => ByDepth.fail .unparsable
    else taken es

def takenAll : List Tree → ByDepth (List (ByDepth Value × ByDepth Value))
  | [] => .ok []
  | mapping _ fs :: ts => ByDepth.both (fun a b => b ++ a) (merged fs) (takenAll ts)
  | around :: ts => takenAll ts
  | _ :: _ => ByDepth.fail .unparsable

/-- The entries of a mapping under keys of its own. -/
def own : List (Tree × Tree) → List (ByDepth Value × ByDepth Value)
  | [] => []
  | (k, v) :: es =>
    if k.tag = .merge then own es
    else if k.tag = .default then
      (match k with
       | scalar _ text => .ok (.text text)
       | _ => ByDepth.fail .unparsable, v.value) :: own es
    else (k.value, v.value) :: own es

/-- The text of the scalar that a mapping stands for. -/
def defaultText : List (Tree × Tree) → Option String
  | [] => none
  | (k, v) :: es =>
    if k.tag = .default then
      match v with
      | scalar _ text => some text
      | mapping _ fs => defaultText fs
      | sequence _ _ | around => none
    else defaultText es

end

end Tree

/-- A value that ends.  A value that holds itself is no tree, so it is none here, though a loader makes it. -/
def closed (v : Value) : Except Fault Value := if isOpen v then .error (.misuse .endless) else .ok v

/-- The value of a text; a text without a document is empty. -/
def parse (text : String) : Except Fault Value := do
  match ← Tree.ofText text.toList with
  | none => return .null
  | some t => closed (← t.value.mapError (·.2))

end Provision.Yaml
