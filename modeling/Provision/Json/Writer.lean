import Provision.Fault
import Provision.Text.Digit
/-!
# Writing JSON

A value as JSON in ASCII, one item a line and two blanks of margin for each level.  Keys that are numbers, truth values
or nothing are written as texts.  Dates, times, bytes and sets have no JSON form.
-/
namespace Provision.Json

/-- One UTF-16 unit as an escape. -/
def unitEscape (n : Nat) : List Char := '\\' :: 'u' :: Text.hexDigits 4 n

def escapeChar (c : Char) : List Char :=
  if c = '"' then ['\\', '"']
  else if c = '\\' then ['\\', '\\']
  else if c = '\n' then ['\\', 'n']
  else if c = '\r' then ['\\', 'r']
  else if c = '\t' then ['\\', 't']
  else if c = '\x0c' then ['\\', 'f']
  else if c = '\x08' then ['\\', 'b']
  else if 32 ≤ c.toNat ∧ c.toNat < 127 then [c]
  else if c.toNat < 0x10000 then unitEscape c.toNat
  else
    let n := c.toNat - 0x10000
    unitEscape (0xD800 + n / 0x400) ++ unitEscape (0xDC00 + n % 0x400)

def quoted (s : String) : String := String.ofList ('"' :: s.toList.flatMap escapeChar ++ ['"'])

def floatText (x : Double) : String :=
  if x.isNaN then "NaN"
  else if x.isInfinite then (if x.isNegative then "-Infinity" else "Infinity")
  else x.text

def keyText : Value → Except Fault String
  | .text s => .ok s
  | .float x => .ok (floatText x)
  | .bool b => .ok (if b then "true" else "false")
  | .null => .ok "null"
  | .int n => do
    Value.requireWritable [.int n]
    return toString n
  | _ => .error (.misuse .wrongOperand)

def newline (depth : Nat) : String := "\n" ++ String.ofList (List.replicate (2 * depth) ' ')

/-- Lines between brackets, or just the brackets. -/
def enclose (depth : Nat) (opening closing : String) (lines : List String) : String :=
  if lines.isEmpty then opening ++ closing
  else opening ++ newline (depth + 1) ++ ("," ++ newline (depth + 1)).intercalate lines ++ newline depth ++ closing

mutual

def renderAt (depth : Nat) : Value → Except Fault String
  | .null => .ok "null"
  | .bool b => .ok (if b then "true" else "false")
  | .int n => do
    Value.requireWritable [.int n]
    return toString n
  | .float x => .ok (floatText x)
  | .text s => .ok (quoted s)
  | .list xs => (enclose depth "[" "]" ·) <$> renderItems (depth + 1) xs
  | .pair k v => do
    let k ← renderAt (depth + 1) k
    let v ← renderAt (depth + 1) v
    return enclose depth "[" "]" [k, v]
  | .map es => (enclose depth "\x7b" "\x7d" ·) <$> renderMembers (depth + 1) es
  | .date _ | .timestamp _ | .bytes _ | .set _ => .error (.misuse .wrongOperand)

def renderItems (depth : Nat) : List Value → Except Fault (List String)
  | [] => .ok []
  | x :: xs => do
    let first ← renderAt depth x
    let rest ← renderItems depth xs
    return first :: rest

def renderMembers (depth : Nat) : List (Value × Value) → Except Fault (List String)
  | [] => .ok []
  | (k, v) :: es => do
    let key ← keyText k
    let first ← renderAt depth v
    let rest ← renderMembers depth es
    return (quoted key ++ ": " ++ first) :: rest

end

def render (v : Value) : Except Fault String := renderAt 0 v

end Provision.Json
