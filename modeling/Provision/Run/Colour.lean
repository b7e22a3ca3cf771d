/-!
# Colours of status lines

The sequences that switch a terminal to a colour and back.
-/
namespace Provision

inductive Colour where
  | progress | success | failure | simulation | bold | reset
  deriving DecidableEq, Repr

namespace Colour

def code : Colour → String
  | progress => "\x1b[94m"
  | success => "\x1b[92m"
  | failure => "\x1b[91m"
  | simulation => "\x1b[96m"
  | bold => "\x1b[1m"
  | reset => "\x1b[0m"

/-- A text after a switching sequence, and back; or the text alone. -/
def wrap (code message : String) (enabled : Bool) : String :=
  if enabled then code ++ message ++ reset.code else message

def paint (c : Colour) (message : String) (enabled : Bool) : String := wrap c.code message enabled

end Colour

end Provision
