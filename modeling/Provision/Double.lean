/-!
# Binary floating point numbers and their shortest text

A `Double` is a number of 64 bits: a sign, eleven exponent bits, fifty-two fraction bits.  `ofDecimal` reads a decimal
to the nearest double, an exact tie going to the even fraction.  `shortest` goes back: among the decimals with the
fewest digits that `ofDecimal` reads as the same double it takes the nearest.  Both compute with exact natural numbers.
-/
namespace Provision

/-- A floating point number, by its bits. -/
structure Double where
  bits : UInt64
  deriving DecidableEq, Inhabited

namespace Double

def pow2 (n : Nat) : Nat := Nat.pow 2 n

def pow10 (n : Nat) : Nat := Nat.pow 10 n

theorem pow10_pos (n : Nat) : 0 < pow10 n := Nat.pow_pos (by decide)

def isNegative (x : Double) : Bool := x.bits.toNat / pow2 63 == 1

def exponentField (x : Double) : Nat := x.bits.toNat / pow2 52 % pow2 11

def fraction (x : Double) : Nat := x.bits.toNat % pow2 52

def isNaN (x : Double) : Bool := x.exponentField == 2047 && x.fraction != 0

def isInfinite (x : Double) : Bool := x.exponentField == 2047 && x.fraction == 0

def isFinite (x : Double) : Bool := x.exponentField != 2047

/-- A finite number is `significand · 2 ^ (scale - 1074)`, but for its sign. -/
def significand (x : Double) : Nat := if x.exponentField = 0 then x.fraction else pow2 52 + x.fraction

def scale (x : Double) : Nat := x.exponentField - 1

def isZero (x : Double) : Bool := x.isFinite && x.significand == 0

def ofFields (negative : Bool) (magnitude : Nat) : Double :=
  ⟨UInt64.ofNat ((if negative then pow2 63 else 0) + magnitude)⟩

def infinity (negative : Bool) : Double := ofFields negative (2047 * pow2 52)

def nan : Double := ofFields false (2047 * pow2 52 + pow2 51)

def neg (x : Double) : Double := ⟨x.bits ^^^ 0x8000000000000000⟩

/-- Rounds `num / den` to the nearest natural number, a tie to the even one. -/
def roundDiv (num den : Nat) : Nat :=
  let q := num / den
  let r := num % den
  if 2 * r < den then q else if den < 2 * r then q + 1 else if q % 2 = 0 then q else q + 1

def ofRatio (negative : Bool) (num den : Nat) : Double :=
  if num = 0 then ofFields negative 0
  else
    -- the least scale at which the quotient takes no more than 53 bits
    let s := num.log2 + 1074 - den.log2 - 53
    let s := if num * pow2 1074 < den * pow2 (s + 53) then s else s + 1
    let m := roundDiv (num * pow2 1074) (den * pow2 s)
    -- a significand that rounds up to 2 ^ 53 carries into the exponent field by itself
    let magnitude := if m < pow2 52 then m else (s + 1) * pow2 52 + (m - pow2 52)
    if magnitude < 2047 * pow2 52 then ofFields negative magnitude else infinity negative

/-- The double nearest to `digits · 10 ^ exponent`.  Exponents far out of range are not multiplied out. -/
def ofDecimal (negative : Bool) (digits : Nat) (exponent : Int) : Double :=
  if digits = 0 then ofFields negative 0
  else
    let top := (digits.log2 : Int) * 3 / 10 + exponent
    if top > 400 then infinity negative
    else if top < -500 then ofFields negative 0
    else if exponent < 0 then ofRatio negative digits (pow10 exponent.natAbs)
    else ofRatio negative (digits * pow10 exponent.natAbs) 1

/-- Whether `g · 10 ^ k` rounds to the positive double with this significand and scale: it is no more than half a step
away, and half a step away only where the significand is even.  Below a power of two the step is half as long. -/
def covers (m s : Nat) (g : Nat) (k : Int) : Bool :=
  let half := if m = pow2 52 ∧ s ≠ 0 then 1 else 2
  let up := pow10 k.toNat
  let down := pow10 (-k).toNat
  -- all three in units of 2 ^ (s - 1076) · 10 ^ min k 0
  let x := g * up * pow2 1076
  let low := (4 * m - half) * pow2 s * down
  let high := (4 * m + 2) * pow2 s * down
  if m % 2 = 0 then low ≤ x && x ≤ high else low < x && x < high

/-- The exponent of the leading decimal digit of `m · 2 ^ (s - 1074)`, for positive `m`. -/
def decimalExponent (m s : Nat) : Int :=
  let num := m * pow2 s
  let den := pow2 1074
  let guess := ((m.log2 : Int) + s - 1074) * 30103 / 100000
  let atLeast (e : Int) : Bool := den * pow10 e.toNat ≤ num * pow10 (-e).toNat
  if atLeast (guess + 1) then guess + 1 else if atLeast guess then guess else guess - 1

/-- The shortest digits from `count` on, with `fuel` counts to try. -/
def shortestFrom (m s : Nat) (e : Int) : Nat → Nat → Nat × Int
  | 0, count => (m, count)
  | fuel + 1, count =>
    let k := e - count + 1
    let num := m * pow2 s * pow10 (-k).toNat
    let den := pow2 1074 * pow10 k.toNat
    let g := num / den
    -- the nearer first; of two equally near the even one
    let nearer := if roundDiv num den = g then [g, g + 1] else [g + 1, g]
    match nearer.find? (covers m s · k) with
    | some d => (d, k)
    | none => shortestFrom m s e fuel (count + 1)

/-- The shortest digits `d` and their exponent `k`: the positive number reads back from `d · 10 ^ k`. -/
def shortest (x : Double) : Nat × Int :=
  shortestFrom x.significand x.scale (decimalExponent x.significand x.scale) 17 1

/-- How a number is laid out: leading digits from `10 ^ -4` to below `10 ^ 16` are written positionally with at least one
place, all others with an exponent of at least two digits. -/
def layout (digits : List Char) (lead : Int) : String :=
  let n := digits.length
  if -4 ≤ lead ∧ lead < 0 then
    "0." ++ String.ofList (List.replicate (lead.natAbs - 1) '0' ++ digits)
  else if 0 ≤ lead ∧ lead < 16 then
    let whole := lead.toNat + 1
    if n ≤ whole then String.ofList (digits ++ List.replicate (whole - n) '0') ++ ".0"
    else String.ofList (digits.take whole) ++ "." ++ String.ofList (digits.drop whole)
  else
    let mantissa := match digits with
      | d :: e :: ds => String.ofList (d :: '.' :: e :: ds)
      | ds => String.ofList ds
    let size := toString lead.natAbs
    mantissa ++ "e" ++ (if lead < 0 then "-" else "+") ++ (if size.length < 2 then "0" ++ size else size)

def text (x : Double) : String :=
  if x.isNaN then "nan"
  else
    let sign := if x.isNegative then "-" else ""
    if x.isInfinite then sign ++ "inf"
    else if x.isZero then sign ++ "0.0"
    else
      let (d, k) := x.shortest
      -- digits that end in a zero would not be shortest, but for the grid's upper neighbour such as 10
      let digits := (toString d).toList
      let kept := (digits.reverse.dropWhile (· == '0')).reverse
      sign ++ layout kept (k + digits.length - 1)

/-- The nearest double to an integer; `none` where that is beyond all finite doubles. -/
def ofInt? (n : Int) : Option Double :=
  let x := ofRatio (n < 0) n.natAbs 1
  if x.isFinite then some x else none

/-- The value of a finite double as a fraction with a power of two below. -/
def toRatio (x : Double) : Int × Nat :=
  let m : Int := (x.significand * pow2 x.scale : Nat)
  (if x.isNegative then -m else m, pow2 1074)

def equalsInt (x : Double) (n : Int) : Bool :=
  x.isFinite && (let (p, q) := x.toRatio; p == n * q)

/-- Equality of numbers: the two zeros are equal, and a number that is not one equals only itself. -/
def same (x y : Double) : Bool := x.bits == y.bits || (x.isZero && y.isZero)

def add (x y : Double) : Double := ⟨(Float.ofBits x.bits + Float.ofBits y.bits).toBits⟩

def mul (x y : Double) : Double := ⟨(Float.ofBits x.bits * Float.ofBits y.bits).toBits⟩

end Double

end Provision
