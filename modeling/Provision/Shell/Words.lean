/-!
# Splitting a text into shell words

Words are separated by space, tab, carriage return or line feed.  Between single quotes every character stands for
itself; between double quotes a backslash escapes a double quote or a backslash and stands for itself before anything
else; outside quotes a backslash makes the next character stand for itself, a line feed included.  There are no comments.
-/
namespace Provision.Shell

inductive QuotingFault where
  | noClosingQuotation
  | noEscapedCharacter
  deriving DecidableEq, Repr

namespace QuotingFault

def message : QuotingFault → String
  | noClosingQuotation => "No closing quotation"
  | noEscapedCharacter => "No escaped character"

end QuotingFault

/-- Where the reader stands in the text. -/
inductive Position where
  /-- Between two words. -/
  | outside
  /-- Inside a word, outside quotes. -/
  | word
  /-- Inside single quotes. -/
  | single
  /-- Inside double quotes. -/
  | double
  /-- After a backslash outside quotes. -/
  | escape
  /-- After a backslash inside double quotes. -/
  | doubleEscape
  deriving DecidableEq, Repr

def isSeparator (c : Char) : Bool := c == ' ' || c == '\t' || c == '\r' || c == '\n'

/-- The words from a position on, where `w` is the part of the current word already read. -/
def splitFrom : Position → List Char → List Char → Except QuotingFault (List (List Char))
  | .outside, _, [] => .ok []
  | .word, w, [] => .ok [w]
  | .single, _, [] => .error .noClosingQuotation
  | .double, _, [] => .error .noClosingQuotation
  | .escape, _, [] => .error .noEscapedCharacter
  | .doubleEscape, _, [] => .error .noEscapedCharacter
  | .outside, w, c :: rest =>
    if isSeparator c then splitFrom .outside w rest
    else if c = '\\' then splitFrom .escape [] rest
    else if c = '\'' then splitFrom .single [] rest
    else if c = '"' then splitFrom .double [] rest
    else splitFrom .word [c] rest
  | .word, w, c :: rest =>
    if isSeparator c then (w :: ·) <$> splitFrom .outside [] rest
    else if c = '\\' then splitFrom .escape w rest
    else if c = '\'' then splitFrom .single w rest
    else if c = '"' then splitFrom .double w rest
    else splitFrom .word (w ++ [c]) rest
  | .single, w, c :: rest =>
    if c = '\'' then splitFrom .word w rest else splitFrom .single (w ++ [c]) rest
  | .double, w, c :: rest =>
    if c = '"' then splitFrom .word w rest
    else if c = '\\' then splitFrom .doubleEscape w rest
    else splitFrom .double (w ++ [c]) rest
  | .escape, w, c :: rest => splitFrom .word (w ++ [c]) rest
  | .doubleEscape, w, c :: rest =>
    if c = '"' ∨ c = '\\' then splitFrom .double (w ++ [c]) rest else splitFrom .double (w ++ ['\\', c]) rest

def split (s : String) : Except QuotingFault (List String) :=
  (splitFrom .outside [] s.toList).map (·.map String.ofList)

end Provision.Shell
