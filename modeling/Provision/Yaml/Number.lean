import Provision.Double
import Provision.Fault
import Provision.Text.Blank
/-!
# Numbers of a YAML scalar

Integers and floating point numbers as they are read where a scalar is known to be one: with blanks around them, a sign,
and decimal digits of any script.
-/
namespace Provision.Yaml

/-- Blanks around a number; of the ASCII separators none counts. -/
def isNumberBlank (c : Char) : Bool := Text.isBlank c && !(28 ≤ c.toNat && c.toNat ≤ 31)

/-- A digit of any script as one of ASCII. -/
def asciiDigit (c : Char) : Char :=
  match Text.digit? c with
  | some d => Char.ofNat (48 + d)
  | none => c

/-- A number without its blanks, its digits in ASCII. -/
def bareNumber (s : List Char) : List Char :=
  (((s.dropWhile isNumberBlank).reverse.dropWhile isNumberBlank).reverse).map asciiDigit

/-- A text after its sign, and whether that is a minus. -/
def unsigned : List Char → Bool × List Char
  | '-' :: rest => (true, rest)
  | '+' :: rest => (false, rest)
  | s => (false, s)

def digitIn? (base : Nat) (c : Char) : Option Nat := (Text.hexDigit? c).filter (· < base)

def hasBaseMark : Nat → Char → Bool
  | 2, c => c == 'b' || c == 'B'
  | 8, c => c == 'o' || c == 'O'
  | 16, c => c == 'x' || c == 'X'
  | _, _ => false

/-- The integer of a text in a base, which may begin with the mark of that base.  Decimal digits are limited; in bases that
are powers of two there is no limit. -/
def integer? (base : Nat) (s : List Char) : Option Int :=
  let (negative, s) := unsigned (bareNumber s)
  let digits := match s with
    | '0' :: c :: rest => if hasBaseMark base c then rest else '0' :: c :: rest
    | s => s
  if digits = [] ∨ (base = 10 ∧ Text.maxDigits < digits.length) then none
  else (digits.mapM (digitIn? base)).map (fun ds =>
    let n : Int := Text.ofDigits base ds
    if negative then -n else n)

/-- Why a text is no integer of a base: the decimal digits at its start are too many, or it is none at all. -/
def integerFault (base : Nat) (s : List Char) : Misread :=
  let digits := ((unsigned (bareNumber s)).2.takeWhile Char.isDigit).length
  if base = 10 ∧ Text.maxDigits < digits then .tooManyDigits digits else .notInteger base (String.ofList s)

/-- The exponent behind a number: nothing, or an `e` with digits. -/
def exponent? : List Char → Option Int
  | [] => some 0
  | c :: rest =>
    if c = 'e' ∨ c = 'E' then
      let (negative, ds) := unsigned rest
      if ds = [] then none
      else (ds.mapM (digitIn? 10)).map (fun ds =>
        let n : Int := Text.ofDigits 10 ds
        if negative then -n else n)
    else none

def float? (s : List Char) : Option Double :=
  let (negative, s) := unsigned (bareNumber s)
  let name := s.map Char.toLower
  if name = "inf".toList ∨ name = "infinity".toList then some (.infinity negative)
  else if name = "nan".toList then some .nan
  else
    let whole := s.takeWhile Char.isDigit
    let rest := s.drop whole.length
    let (places, rest) := match rest with
      | '.' :: rest => (rest.takeWhile Char.isDigit, rest.dropWhile Char.isDigit)
      | rest => ([], rest)
    if whole = [] ∧ places = [] then none
    else (exponent? rest).map (fun power =>
      .ofDecimal negative (Text.ofDigits 10 ((whole ++ places).map (fun d => d.toNat - 48))) (power - places.length))

def sixtieths (s : List Char) : List (List Char) := s.splitOn ':'

def ofSixtieths (ds : List Int) : Int := ds.foldl (fun n d => n * 60 + d) 0

/-- The sum of parts from the last to the first, each worth sixty times the one behind it; `none` where a place is worth
more than every finite number. -/
def sumOfPlaces (total : Double) (place : Nat) : List Double → Option Double
  | [] => some total
  | d :: ds => do
    let worth ← Double.ofInt? place
    sumOfPlaces (total.add (d.mul worth)) (place * 60) ds

end Provision.Yaml
