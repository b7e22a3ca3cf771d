import Provision.Double
import Provision.Value.Calendar
/-!
# Values of a layout document

What a document holds before it is known to be a layout: scalars, lists, mappings in the order they were written.  Two
values may be equal without being written alike (`1`, `1.0` and `true` are one number), and mappings find their entries
up to that equality (`same`).  Lists, mappings and sets cannot be keys (`isKey`).
-/
namespace Provision

inductive Value where
  | null
  | bool (b : Bool)
  | int (n : Int)
  | float (x : Double)
  | text (s : String)
  | date (d : Date)
  | timestamp (t : Timestamp)
  | bytes (bs : List UInt8)
  | list (items : List Value)
  /-- An entry of an ordered list of entries. -/
  | pair (key value : Value)
  | set (items : List Value)
  | map (entries : List (Value × Value))
  deriving Inhabited

namespace Value

/-- Numbers as they are compared: a truth value counts as zero or one. -/
inductive Number where
  | int (n : Int)
  | float (x : Double)

namespace Number

def same : Number → Number → Bool
  | int m, int n => m == n
  | int m, float x => x.equalsInt m
  | float x, int n => x.equalsInt n
  | float x, float y => x.same y

def toRatio? : Number → Option (Int × Nat)
  | int n => some (n, 1)
  | float x => if x.isFinite then some x.toRatio else none

/-- The order of numbers; the infinities are at its ends. -/
def less (x y : Number) : Bool :=
  let atEnd (n : Number) (negative : Bool) := match n with
    | float d => d.isInfinite && d.isNegative == negative
    | int _ => false
  match x.toRatio?, y.toRatio? with
  | some (p, q), some (r, s) => p * s < r * q
  | some _, none => atEnd y false
  | none, some _ => atEnd x true
  | none, none => atEnd x true && atEnd y false

end Number

def number? : Value → Option Number
  | bool b => some (.int (if b then 1 else 0))
  | int n => some (.int n)
  | float x => some (.float x)
  | _ => none

def sameScalar : Value → Value → Bool
  | null, null => true
  | text s, text t => s == t
  | date d, date e => d == e
  | timestamp s, timestamp t => s.same t
  | bytes a, bytes b => a == b
  | x, y => match x.number?, y.number? with
    | some m, some n => m.same n
    | _, _ => false

mutual

/-- Equality of values: by number, by text, in order for lists, in any order for sets and mappings. -/
def same : Value → Value → Bool
  | list xs, list ys => sameItems xs ys
  | pair k v, pair k' v' => same k k' && same v v'
  | set xs, set ys => xs.length == ys.length && foundIn xs ys
  | map xs, map ys => xs.length == ys.length && sameEntries xs ys
  | x, y => sameScalar x y

def sameItems : List Value → List Value → Bool
  | [], [] => true
  | x :: xs, y :: ys => same x y && sameItems xs ys
  | _, _ => false

/-- Every value of the first list is in the second. -/
def foundIn : List Value → List Value → Bool
  | [], _ => true
  | x :: xs, ys => ys.any (fun y => same x y) && foundIn xs ys

/-- Every entry of the first list is in the second. -/
def sameEntries : List (Value × Value) → List (Value × Value) → Bool
  | [], _ => true
  | (k, v) :: xs, ys => ys.any (fun e => same k e.1 && same v e.2) && sameEntries xs ys

end

def isKey : Value → Bool
  | list _ => false
  | map _ => false
  | set _ => false
  | pair k v => isKey k && isKey v
  | _ => true

/-- Whether a value counts as given: nothing, zero and emptiness do not. -/
def isGiven : Value → Bool
  | null => false
  | bool b => b
  | int n => n != 0
  | float x => !x.isZero
  | text s => s != ""
  | bytes bs => !bs.isEmpty
  | list xs => !xs.isEmpty
  | set xs => !xs.isEmpty
  | map es => !es.isEmpty
  | _ => true

def isNull : Value → Bool
  | null => true
  | _ => false

/-- Entries keyed by values, in the order in which their keys were first written. -/
abbrev Entries := List (Value × Value)

inductive OrderClass where
  | number | text | bytes | date | localTime | instant | other
  deriving DecidableEq

def orderClass : Value → OrderClass
  | bool _ | int _ | float _ => .number
  | text _ => .text
  | bytes _ => .bytes
  | date _ => .date
  | timestamp t => if t.offset.isSome then .instant else .localTime
  | _ => .other

/-- The order within a class: numbers by size, texts by code points, times from early to late. -/
def less (v w : Value) : Bool :=
  match v, w with
  | text s, text t => s < t
  | bytes a, bytes b => a < b
  | date d, date e => d.dayNumber < e.dayNumber
  | timestamp s, timestamp t => s.instant < t.instant
  | v, w => match v.number?, w.number? with
    | some m, some n => m.less n
    | _, _ => false

/-- Whether values can be sorted: there is at most one, or all are of one class that has an order. -/
def areSortable : List Value → Bool
  | [] => true
  | [_] => true
  | v :: vs => v.orderClass != .other && vs.all (fun w => w.orderClass == v.orderClass)

end Value

namespace Value.Entries

variable {α : Type}

def get? (es : List (Value × α)) (k : Value) : Option α := (es.find? (fun e => Value.same k e.1)).map (·.2)

def field (es : Entries) (k : String) : Value := (get? es (.text k)).getD .null

/-- Writes an entry: a key that is there keeps its place and its spelling, a new one goes to the end. -/
def put : List (Value × α) → Value → α → List (Value × α)
  | [], k, v => [(k, v)]
  | e :: es, k, v => if Value.same k e.1 then (e.1, v) :: es else e :: put es k v

def ofPairs (ps : List (Value × Value)) : Entries := ps.foldl (fun es p => put es p.1 p.2) []

end Value.Entries

end Provision
