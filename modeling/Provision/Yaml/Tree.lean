/-!
# Trees of a YAML document

A document is a tree of scalars, sequences and mappings, each with a tag that names its type.  An alias of a tree around
it has no tree of its own.
-/
namespace Provision.Yaml

inductive Tag where
  | null | bool | int | float | binary | timestamp | text
  | sequence | map | set | orderedMap | pairs
  /-- The key under which a mapping takes in others. -/
  | merge
  /-- The key of a mapping's own scalar. -/
  | default
  | unknown
  deriving DecidableEq, Repr

namespace Tag

/-- The addresses of tags, but for their common start. -/
def names : List (String × Tag) := [
  ("null", null), ("bool", bool), ("int", int), ("float", float), ("binary", binary), ("timestamp", timestamp),
  ("str", text), ("seq", sequence), ("map", map), ("set", set), ("omap", orderedMap), ("pairs", pairs),
  ("merge", merge), ("value", default)]

/-- The start of the addresses of tags. -/
def commonStart : String := "tag:yaml.org,2002:"

def ofAddress (address : String) : Tag :=
  ((names.find? (fun n => commonStart ++ n.1 == address)).map (·.2)).getD unknown

def isCollection (t : Tag) : Bool :=
  t == sequence || t == map || t == set || t == orderedMap || t == pairs

end Tag

inductive Tree where
  | scalar (tag : Tag) (text : String)
  | sequence (tag : Tag) (items : List Tree)
  | mapping (tag : Tag) (entries : List (Tree × Tree))
  /-- A tree around this place. -/
  | around

namespace Tree

def tag : Tree → Tag
  | scalar t _ => t
  | sequence t _ => t
  | mapping t _ => t
  | around => .unknown

/-- A scalar that is not written. -/
def empty : Tree := scalar .null ""

end Tree

end Provision.Yaml
