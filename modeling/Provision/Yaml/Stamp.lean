import Provision.Text.Digit
import Provision.Value.Basic
/-!
# Dates and times of a YAML scalar

A date is a year of four digits, a month and a day; a time of day may follow, and behind it an offset from universal time.
-/
namespace Provision.Yaml

/-- A date, and a time that may follow it. -/
structure Stamp where
  year : Nat
  month : Nat
  day : Nat
  time : Option (Nat × Nat × Nat)
  /-- Millionths of a second. -/
  fraction : Nat
  /-- Seconds ahead of universal time. -/
  offset : Option Int

namespace Stamp

def numberOf (ds : List Char) : Nat := Text.ofDigits 10 (ds.map (fun d => d.toNat - 48))

def short? : List Char → Option (Nat × List Char)
  | a :: b :: rest =>
    if a.isDigit then (if b.isDigit then some (numberOf [a, b], rest) else some (numberOf [a], b :: rest)) else none
  | [a] => if a.isDigit then some (numberOf [a], []) else none
  | [] => none

/-- A number of two digits behind a mark. -/
def two? (mark : Char) : List Char → Option (Nat × List Char)
  | c :: a :: b :: rest => if c = mark ∧ a.isDigit ∧ b.isDigit then some (numberOf [a, b], rest) else none
  | _ => none

def isBlank (c : Char) : Bool := c == ' ' || c == '\t'

def millionths (places : List Char) : Nat :=
  let six := places.take 6
  numberOf (six ++ List.replicate (6 - six.length) '0')

/-- An offset at the end of a text, blanks before it. -/
def offset? (s : List Char) : Option (Option Int) :=
  match s.dropWhile isBlank with
  | [] => if s = [] then some none else none
  | ['Z'] => some (some 0)
  | sign :: rest =>
    if sign = '+' ∨ sign = '-' then do
      let (hours, rest) ← short? rest
      let minutes ← if rest = [] then some 0 else match two? ':' rest with
        | some (m, []) => some m
        | _ => none
      let seconds : Int := hours * 3600 + minutes * 60
      some (some (if sign = '-' then -seconds else seconds))
    else none

/-- What separates a date and a time: a letter, or blanks. -/
def afterDate? : List Char → Option (List Char)
  | [] => none
  | c :: rest =>
    if c = 'T' ∨ c = 't' then some rest
    else if isBlank c then some (rest.dropWhile isBlank)
    else none

/-- A date that may have a time behind it. -/
def ofChars? (s : List Char) : Option Stamp := do
  let year := s.take 4
  if !(year.length = 4 && year.all Char.isDigit) then none
  let '-' :: s := s.drop 4 | none
  let (month, s) ← short? s
  let '-' :: s := s | none
  let (day, s) ← short? s
  if s = [] then some ⟨numberOf year, month, day, none, 0, none⟩
  else
    let s ← afterDate? s
    let (hour, s) ← short? s
    let (minute, s) ← two? ':' s
    let (second, s) ← two? ':' s
    let (places, s) := match s with
      | '.' :: rest => (rest.takeWhile Char.isDigit, rest.dropWhile Char.isDigit)
      | s => ([], s)
    let offset ← offset? s
    some ⟨numberOf year, month, day, some (hour, minute, second), millionths places, offset⟩

def value (stamp : Stamp) : Except CalendarFault Value :=
  match stamp.time with
  | none => Value.date <$> Date.ofParts stamp.year stamp.month stamp.day
  | some (hour, minute, second) =>
    Value.timestamp <$> Timestamp.ofParts stamp.year stamp.month stamp.day hour minute second stamp.fraction stamp.offset

end Stamp

end Provision.Yaml
