import Provision.Fault
import Provision.Text.Digit
import Provision.Text.Surrogate
/-!
# Reading JSON

A JSON text holds one value between blanks.  Besides the standard numbers the three names `NaN`, `Infinity` and
`-Infinity` are read; a number with a point or an exponent is a `Double`, any other an integer.  A key that is written
again keeps its place and takes the later value.  Everything that is not JSON is `Fault.unparsable`.
-/
namespace Provision.Json

def isSpace (c : Char) : Bool := c == ' ' || c == '\t' || c == '\n' || c == '\r'

def skip (s : List Char) : List Char := s.dropWhile isSpace

def escaped? : Char → Option Char
  | '"' => some '"'
  | '\\' => some '\\'
  | '/' => some '/'
  | 'b' => some '\x08'
  | 'f' => some '\x0c'
  | 'n' => some '\n'
  | 'r' => some '\r'
  | 't' => some '\t'
  | _ => none

/-- The rest of a string after its opening quote; `acc` holds the code units read so far, last first. -/
def stringFrom (acc : List Nat) : List Char → Except Fault (String × List Char)
  | [] => .error .unparsable
  | '"' :: rest => .ok (Text.ofUnits acc.reverse, rest)
  | '\\' :: 'u' :: a :: b :: c :: d :: rest =>
    match [a, b, c, d].mapM Text.hexDigit? with
    | some ds => stringFrom (Text.ofDigits 16 ds :: acc) rest
    | none => .error .unparsable
  | '\\' :: c :: rest =>
    match escaped? c with
    | some e => stringFrom (e.toNat :: acc) rest
    | none => .error .unparsable
  | c :: rest => if c.toNat < 32 ∨ c = '\\' then .error .unparsable else stringFrom (c.toNat :: acc) rest

def digitsOf (cs : List Char) : List Nat := cs.map (fun c => c.toNat - 48)

def fraction : List Char → List Char × List Char
  | '.' :: d :: rest =>
    if d.isDigit then (d :: rest.takeWhile Char.isDigit, rest.dropWhile Char.isDigit) else ([], '.' :: d :: rest)
  | s => ([], s)

def exponent (s : List Char) : Option Int × List Char :=
  let read (negative : Bool) (rest : List Char) : Option Int × List Char :=
    let ds := rest.takeWhile Char.isDigit
    if ds = [] then (none, s)
    else
      let n : Int := Text.ofDigits 10 (digitsOf ds)
      (some (if negative then -n else n), rest.dropWhile Char.isDigit)
  match s with
  | c :: rest =>
    if c = 'e' ∨ c = 'E' then
      match rest with
      | '-' :: more => read true more
      | '+' :: more => read false more
      | more => read false more
    else (none, s)
  | [] => (none, s)

def number (negative : Bool) (s : List Char) : Except Fault (Value × List Char) :=
  let (whole, rest) := match s with
    | '0' :: rest => (['0'], rest)
    | s => (s.takeWhile Char.isDigit, s.dropWhile Char.isDigit)
  if whole = [] then .error .unparsable
  else
    let (places, rest) := fraction rest
    let (power, rest) := exponent rest
    if places = [] ∧ power = none then
      if Text.maxDigits < whole.length then .error (.misuse (.misread (.tooManyDigits whole.length)))
      else
        let n : Int := Text.ofDigits 10 (digitsOf whole)
        .ok (.int (if negative then -n else n), rest)
    else
      .ok (.float (.ofDecimal negative (Text.ofDigits 10 (digitsOf (whole ++ places))) (power.getD 0 - places.length)), rest)

def literals : List (List Char × Value) :=
  [("null".toList, .null), ("true".toList, .bool true), ("false".toList, .bool false), ("NaN".toList, .float .nan),
   ("Infinity".toList, .float (.infinity false)), ("-Infinity".toList, .float (.infinity true))]

def scalar (s : List Char) : Except Fault (Value × List Char) :=
  match literals.find? (fun l => l.1.isPrefixOf s) with
  | some (name, v) => .ok (v, s.drop name.length)
  | none => match s with
    | '-' :: rest => number true rest
    | s => number false s

mutual

/-- The value at the start of a text.  Between a value and one nested in it lies a bracket, so two steps a character are
fuel enough. -/
def value : Nat → List Char → Except Fault (Value × List Char)
  | 0, _ => .error .unparsable
  | fuel + 1, s =>
    match s with
    | '"' :: rest => do
      let (t, rest) ← stringFrom [] rest
      return (.text t, rest)
    | '[' :: rest => do
      match skip rest with
      | ']' :: rest => return (.list [], rest)
      | rest =>
        let (vs, rest) ← items fuel rest
        return (.list vs, rest)
    | '\x7b' :: rest => do
      match skip rest with
      | '\x7d' :: rest => return (.map [], rest)
      | rest =>
        let (ps, rest) ← members fuel rest
        return (.map (Value.Entries.ofPairs ps), rest)
    | s => scalar s

def items : Nat → List Char → Except Fault (List Value × List Char)
  | 0, _ => .error .unparsable
  | fuel + 1, s => do
    let (v, rest) ← value fuel s
    match skip rest with
    | ',' :: rest =>
      let (vs, rest) ← items fuel (skip rest)
      return (v :: vs, rest)
    | ']' :: rest => return ([v], rest)
    | _ => throw .unparsable

def members : Nat → List Char → Except Fault (List (Value × Value) × List Char)
  | 0, _ => .error .unparsable
  | fuel + 1, s => do
    match s with
    | '"' :: rest =>
      let (k, rest) ← stringFrom [] rest
      match skip rest with
      | ':' :: rest =>
        let (v, rest) ← value fuel (skip rest)
        match skip rest with
        | ',' :: rest =>
          let (ps, rest) ← members fuel (skip rest)
          return ((.text k, v) :: ps, rest)
        | '\x7d' :: rest => return ([(.text k, v)], rest)
        | _ => throw .unparsable
      | _ => throw .unparsable
    | _ => throw .unparsable

end

/-- The value of a JSON text.  A byte order mark is no blank. -/
def parse (text : String) : Except Fault Value := do
  let s := text.toList
  let (v, rest) ← value (2 * s.length + 1) (skip s)
  if skip rest = [] then return v else throw .unparsable

end Provision.Json
