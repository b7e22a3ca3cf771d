import Provision.Text.Digit
import Provision.Text.Printable
import Provision.Value.Basic
/-!
# Values as text

`Value.toText` is a value as it stands in a script: a text is itself, everything else is its literal.  `Value.literal` is
a value as messages quote it: texts between quotes with what cannot be shown escaped, lists and mappings in brackets.
A value in which an integer has too many digits is not written at all (`Value.isWritable`); both functions are only used
where that has been checked.
-/
namespace Provision

def literalChar (quote c : Char) : List Char :=
  if c = quote ∨ c = '\\' then ['\\', c]
  else if c = '\t' then ['\\', 't']
  else if c = '\n' then ['\\', 'n']
  else if c = '\r' then ['\\', 'r']
  else if Text.isPrintable c then [c]
  else if c.toNat < 0x100 then '\\' :: 'x' :: Text.hexDigits 2 c.toNat
  else if c.toNat < 0x10000 then '\\' :: 'u' :: Text.hexDigits 4 c.toNat
  else '\\' :: 'U' :: Text.hexDigits 8 c.toNat

/-- The quote of a literal: single, unless only a double one needs no escape. -/
def literalQuote (cs : List Char) : Char := if cs.contains '\'' && !cs.contains '"' then '"' else '\''

def textLiteral (s : String) : String :=
  let q := literalQuote s.toList
  String.ofList (q :: s.toList.flatMap (literalChar q) ++ [q])

/-- Bytes between quotes, with a mark before them; all but printable ASCII is escaped. -/
def bytesLiteral (bs : List UInt8) : String :=
  let cs := bs.map (fun b => Char.ofNat b.toNat)
  let q := literalQuote cs
  let one (c : Char) := if c.toNat < 127 then literalChar q c else '\\' :: 'x' :: Text.hexDigits 2 c.toNat
  String.ofList ('b' :: q :: cs.flatMap one ++ [q])

namespace Date

def literal (d : Date) : String :=
  "datetime.date(" ++ toString d.year ++ ", " ++ toString d.month ++ ", " ++ toString d.day ++ ")"

end Date

namespace Timestamp

/-- A span of time that is not zero, in days and the seconds of a day. -/
def spanLiteral (seconds : Int) : String :=
  let days := seconds.fdiv 86400
  let rest := seconds.fmod 86400
  "datetime.timedelta(" ++
    (if days = 0 then "seconds=" ++ toString rest
     else if rest = 0 then "days=" ++ toString days
     else "days=" ++ toString days ++ ", seconds=" ++ toString rest) ++ ")"

/-- Seconds and their fraction are left out from the end where they are zero. -/
def literal (t : Timestamp) : String :=
  let parts := [t.date.year, t.date.month, t.date.day, t.hour, t.minute] ++
    (if t.fraction ≠ 0 then [t.second, t.fraction] else if t.second ≠ 0 then [t.second] else [])
  let zone := match t.offset with
    | none => ""
    | some o =>
      if o = 0 then ", tzinfo=datetime.timezone.utc" else ", tzinfo=datetime.timezone(" ++ spanLiteral o ++ ")"
  "datetime.datetime(" ++ ", ".intercalate (parts.map toString) ++ zone ++ ")"

end Timestamp

namespace Value

mutual

def literal : Value → String
  | null => "None"
  | bool b => if b then "True" else "False"
  | int n => toString n
  | float x => x.text
  | text s => textLiteral s
  | date d => d.literal
  | timestamp t => t.literal
  | bytes bs => bytesLiteral bs
  | list xs => "[" ++ ", ".intercalate (literals xs) ++ "]"
  | pair k v => "(" ++ literal k ++ ", " ++ literal v ++ ")"
  | set xs => if xs.isEmpty then "set()" else "\x7b" ++ ", ".intercalate (literals xs) ++ "\x7d"
  | map es => "\x7b" ++ ", ".intercalate (entryLiterals es) ++ "\x7d"

def literals : List Value → List String
  | [] => []
  | x :: xs => literal x :: literals xs

def entryLiterals : List (Value × Value) → List String
  | [] => []
  | (k, v) :: es => (literal k ++ ": " ++ literal v) :: entryLiterals es

end

mutual

/-- Whether a value can be written: no integer in it has too many digits. -/
def isWritable : Value → Bool
  | int n => n.natAbs < Double.pow10 Text.maxDigits
  | list xs => areWritable xs
  | pair k v => isWritable k && isWritable v
  | set xs => areWritable xs
  | map es => areEntriesWritable es
  | _ => true

def areWritable : List Value → Bool
  | [] => true
  | x :: xs => isWritable x && areWritable xs

def areEntriesWritable : List (Value × Value) → Bool
  | [] => true
  | (k, v) :: es => isWritable k && isWritable v && areEntriesWritable es

end

@[simp, grind =] theorem isWritable_text (s : String) : isWritable (text s) = true := rfl

@[simp, grind =] theorem areWritable_nil : areWritable [] = true := rfl

@[simp, grind =] theorem areWritable_cons (x : Value) (xs : List Value) :
    areWritable (x :: xs) = (x.isWritable && areWritable xs) := rfl

theorem areWritable_iff {xs : List Value} : areWritable xs = true ↔ ∀ x ∈ xs, x.isWritable = true := by
  induction xs with
  | nil => simp
  | cons x xs ih => simp [ih]

theorem areEntriesWritable_iff {es : List (Value × Value)} :
    areEntriesWritable es = true ↔ ∀ e ∈ es, e.1.isWritable = true ∧ e.2.isWritable = true := by
  induction es with
  | nil => simp [areEntriesWritable]
  | cons e es ih => simp [areEntriesWritable, ih]

def toText : Value → String
  | text s => s
  | date d => d.text
  | timestamp t => t.text
  | v => v.literal

@[simp] theorem toText_text (s : String) : toText (text s) = s := rfl

/-- The shell words of a value: nothing is no word, a list is one word per item, all else is one word. -/
def words : Value → List String
  | null => []
  | list xs => xs.map toText
  | pair k v => [k.toText, v.toText]
  | v => [v.toText]

def typeName : Value → String
  | null => "NoneType"
  | bool _ => "bool"
  | int _ => "int"
  | float _ => "float"
  | text _ => "str"
  | date _ => "date"
  | timestamp _ => "datetime"
  | bytes _ => "bytes"
  | list _ => "list"
  | pair _ _ => "tuple"
  | set _ => "set"
  | map _ => "dict"

end Value

end Provision
