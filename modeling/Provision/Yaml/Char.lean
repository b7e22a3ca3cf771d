/-!
# Character classes of YAML

A text is read up to its end as if a NUL stood there; no text holds one (`isAllowed_nul`), so the classes of what may end
a word take the NUL in.
-/
namespace Provision.Yaml

def isAllowed (c : Char) : Bool :=
  let n := c.toNat
  n == 9 || n == 10 || n == 13 || (0x20 ≤ n && n ≤ 0x7E) || n == 0x85 || (0xA0 ≤ n && n ≤ 0xD7FF) ||
    (0xE000 ≤ n && n ≤ 0xFFFD) || 0x10000 ≤ n

theorem isAllowed_nul : isAllowed '\x00' = false := by decide

def isBreak (c : Char) : Bool :=
  c == '\n' || c == '\r' || c == '\x85' || c == '\u2028' || c == '\u2029'

def isSpaceOrBreak (c : Char) : Bool := c == ' ' || isBreak c

def isGap (c : Char) : Bool := c == '\t' || isSpaceOrBreak c

def endsLine (c : Char) : Bool := c == '\x00' || isBreak c

def endsProperty (c : Char) : Bool := c == ' ' || endsLine c

def endsIndicator (c : Char) : Bool := c == '\t' || endsProperty c

theorem endsIndicator_of_isGap {c : Char} (h : isGap c = true) : endsIndicator c = true := by
  unfold isGap isSpaceOrBreak at h
  unfold endsIndicator endsProperty endsLine
  revert h
  cases c == '\t' <;> cases c == ' ' <;> simp +contextual

def isWord (c : Char) : Bool := c.isAlphanum || c == '-' || c == '_'

def isAddress (c : Char) : Bool := isWord c || ";/?:@&=+$,.!~*'()[]%".toList.contains c

/-- Characters that cannot begin a plain scalar. -/
def isIndicator (c : Char) : Bool := "-?:,[]\x7b\x7d#&*!|>'\"%@`".toList.contains c

def endsFlowScalar (c : Char) : Bool := ",?[]\x7b\x7d".toList.contains c

/-- Characters before which a colon ends a plain scalar between brackets. -/
def followsFlowKey (c : Char) : Bool := ",[]\x7b\x7d".toList.contains c

end Provision.Yaml
