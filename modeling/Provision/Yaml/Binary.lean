/-!
# Bytes written in sixty-four characters

Four characters are three bytes.  Characters outside the alphabet are passed over; padding ends the text as soon as it
fills the last four.
-/
namespace Provision.Yaml.Binary

def sextet? (c : Char) : Option Nat :=
  if c.isUpper then some (c.toNat - 65)
  else if c.isLower then some (c.toNat - 71)
  else if c.isDigit then some (c.toNat + 4)
  else if c = '+' then some 62
  else if c = '/' then some 63
  else none

/-- The bytes of a text, where `held` are the characters of four that were read already and `padding` is the number of
padding characters behind them.  `none` where the last four are not filled. -/
def decodeFrom (held : List Nat) (padding : Nat) : List Char → Option (List UInt8)
  | [] => if held = [] then some [] else none
  | c :: rest =>
    if c = '=' then
      if 2 ≤ held.length then
        if 4 ≤ held.length + padding + 1 then some [] else decodeFrom held (padding + 1) rest
      else decodeFrom held padding rest
    else
      match sextet? c, held with
      | none, _ => decodeFrom held padding rest
      | some d, [] => decodeFrom [d] 0 rest
      | some d, [a] => (UInt8.ofNat (a * 4 + d / 16) :: ·) <$> decodeFrom [a, d] 0 rest
      | some d, [a, b] => (UInt8.ofNat (b % 16 * 16 + d / 4) :: ·) <$> decodeFrom [a, b, d] 0 rest
      | some d, _ :: _ :: e :: _ => (UInt8.ofNat (e % 4 * 64 + d) :: ·) <$> decodeFrom [] 0 rest

def decode (s : List Char) : Option (List UInt8) := decodeFrom [] 0 s

end Provision.Yaml.Binary
