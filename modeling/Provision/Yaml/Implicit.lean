import Provision.Yaml.Stamp
import Provision.Yaml.Tree
/-!
# The type of a plain scalar

A plain scalar without a tag is of the first type that its text has the form of; all other texts are texts.
-/
namespace Provision.Yaml.Implicit

def isDigitOrBar (c : Char) : Bool := c.isDigit || c == '_'

def skipSign : List Char → List Char
  | '+' :: rest => rest
  | '-' :: rest => rest
  | s => s

def isBool (s : String) : Bool :=
  ["yes", "Yes", "YES", "no", "No", "NO", "true", "True", "TRUE", "false", "False", "FALSE",
   "on", "On", "ON", "off", "Off", "OFF"].contains s

def isNull (s : String) : Bool := ["", "~", "null", "Null", "NULL"].contains s

/-- A digit, then digits and bars. -/
def isDigits : List Char → Bool
  | c :: rest => c.isDigit && rest.all isDigitOrBar
  | [] => false

/-- A part of a number in base sixty behind the first. -/
def isSixtieth : List Char → Bool
  | [a] => a.isDigit
  | [a, b] => '0' ≤ a && a ≤ '5' && b.isDigit
  | _ => false

/-- Numbers in base sixty have two parts at least. -/
def isSexagesimal (s : List Char) : Bool :=
  match s.splitOn ':' with
  | first :: second :: rest => isDigits first && (second :: rest).all isSixtieth
  | _ => false

/-- Some characters, all of a class. -/
def isSome (p : Char → Bool) (s : List Char) : Bool := !s.isEmpty && s.all p

def isInt (s : List Char) : Bool :=
  match skipSign s with
  | ['0'] => true
  | '0' :: 'b' :: rest => isSome (fun c => c == '0' || c == '1' || c == '_') rest
  | '0' :: 'x' :: rest => isSome (fun c => (Text.hexDigit? c).isSome || c == '_') rest
  | '0' :: rest => isSome (fun c => ('0' ≤ c && c ≤ '7') || c == '_') rest
  | s => isDigits s || isSexagesimal s

/-- An exponent with its sign, or nothing. -/
def isPower : List Char → Bool
  | [] => true
  | e :: sign :: rest => (e == 'e' || e == 'E') && (sign == '+' || sign == '-') && isSome Char.isDigit rest
  | _ => false

def isFloat (s : List Char) : Bool :=
  let u := skipSign s
  let whole := u.takeWhile (· != '.')
  match u.drop whole.length with
  | '.' :: places =>
    let power := places.dropWhile isDigitOrBar
    if whole = [] then
      ["inf", "Inf", "INF"].contains (String.ofList places) ||
        (u.length == s.length && (["nan", "NaN", "NAN"].contains (String.ofList places) ||
          (places.headD ' ').isDigit && isPower power))
    else isDigits whole && isPower power || isSexagesimal whole && power.isEmpty
  | _ => false

/-- A date of full width, or a date with a time. -/
def isTimestamp (s : List Char) : Bool :=
  match Stamp.ofChars? s with
  | some stamp => stamp.time.isSome || s.length == 10
  | none => false

def withoutLineFeed (s : String) : String :=
  if s.toList.getLast? = some '\n' then String.ofList s.toList.dropLast else s

/-- The type of a plain scalar.  A line feed at its end does not count, but it is more than nothing. -/
def tagOf (text : String) : Tag :=
  let s := withoutLineFeed text
  let cs := s.toList
  if s = "" then (if text = "" then .null else .text)
  else if isBool s then .bool
  else if isFloat cs then .float
  else if isInt cs then .int
  else if s = "<<" then .merge
  else if isNull s then .null
  else if isTimestamp cs then .timestamp
  else if s = "=" then .default
  else .text

end Provision.Yaml.Implicit
