/-!
# Paths

A path is a root, which is empty for a relative path, and the names below it.  Reading a path drops empty names and
single points; two points stay.  Two slashes at the start are a root of their own, three or more are one.
-/
namespace Provision.Files

structure Path where
  root : String
  names : List String
  deriving DecidableEq, Repr, Inhabited

namespace Path

/-- The names between slashes, empty ones and single points left out. -/
def namesOf (s : List Char) : List String :=
  ((s.splitOn '/').filter (fun n => n != [] && n != ['.'])).map String.ofList

def rootOf : List Char → String
  | '/' :: '/' :: '/' :: _ => "/"
  | '/' :: '/' :: _ => "//"
  | '/' :: _ => "/"
  | _ => ""

def ofString (s : String) : Path := ⟨rootOf s.toList, namesOf s.toList⟩

/-- The text of a path; the path without names and root is a point. -/
def text (p : Path) : String :=
  let t := p.root ++ "/".intercalate p.names
  if t = "" then "." else t

def isRelative (p : Path) : Bool := p.root == ""

def child (p : Path) (name : String) : Path := { p with names := p.names ++ [name] }

def parent (p : Path) : Path := { p with names := p.names.dropLast }

theorem parent_child (p : Path) (name : String) : (p.child name).parent = p := by
  simp [child, parent]

def name (p : Path) : String := p.names.getLast?.getD ""

/-- The end of the last name from its last point on; a point at the start or the end of a name does not count. -/
def extension (p : Path) : String :=
  let cs := p.name.toList
  let tail := (cs.reverse.takeWhile (· != '.')).reverse
  if tail = [] ∨ cs.length ≤ tail.length + 1 then "" else String.ofList ('.' :: tail)

end Path

end Provision.Files
