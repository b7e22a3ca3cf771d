import Provision.Fault
/-!
# Options of a node

How one option of a node is read from the mapping that declares it.  An option that is null counts as absent.  Lists,
arguments, mappings and mountpoints have a structure of their own; their faults name the option after the node's path.
-/
namespace Provision

open Value (Entries)

structure Declared where
  path : String
  entries : Entries

namespace Declared

def get? (d : Declared) (option : String) : Option Value :=
  match Entries.field d.entries option with
  | .null => none
  | v => some v

theorem get?_ne_null (d : Declared) (option : String) : d.get? option ≠ some .null := by
  unfold get?
  intro h
  split at h
  · simp at h
  · rename_i v hv
    simp only [Option.some.injEq] at h
    exact hv h

def place (d : Declared) (option : String) : String := d.path ++ "." ++ option

def getD (d : Declared) (option : String) (default : Value) : Value := (d.get? option).getD default

def require (d : Declared) (option : String) (default : Option Value) : Except Fault Value :=
  match d.get? option, default with
  | some v, _ => .ok v
  | none, some v => .ok v
  | none, none => .error (.layout d.path (.missing option))

def listOf (place : String) : Value → Except Fault (List String)
  | .list xs => do
    Value.requireWritable xs
    return xs.map Value.toText
  | .pair k v => do
    Value.requireWritable [k, v]
    return [k.toText, v.toText]
  | v => .error (.layout place (.notList v))

/-- Arguments: the words of a text, or the texts of a list. -/
def argumentsOf (place : String) : Value → Except Fault (List String)
  | .text s => (Shell.split s).mapError Fault.badQuoting
  | v => listOf place v

/-- Writes a property: a name that is there keeps its place. -/
def putProperty : List (String × String) → String → String → List (String × String)
  | [], k, v => [(k, v)]
  | p :: ps, k, v => if p.1 = k then (k, v) :: ps else p :: putProperty ps k v

def propertiesOf (place : String) : Value → Except Fault (List (String × String))
  | .map es => do
    Value.requireWritable [.map es]
    return es.foldl (fun ps e => putProperty ps e.1.toText e.2.toText) []
  | v => .error (.layout place (.notMapping v))

def mountpointOf (place : String) : Value → Except Fault String
  | .text s => if s.toList.head? = some '/' then .ok s else .error (.layout place (.notAbsolute (.text s)))
  | v => .error (.layout place (.notAbsolute v))

theorem head?_of_mountpointOf {place s : String} {v : Value} (h : mountpointOf place v = .ok s) :
    s.toList.head? = some '/' := by
  unfold mountpointOf at h
  split at h
  · split at h
    · cases h; assumption
    · cases h
  · cases h

def list (d : Declared) (option : String) (default : List String) : Except Fault (List String) :=
  ((d.get? option).map (listOf (d.place option))).getD (.ok default)

def arguments (d : Declared) (option : String) : Except Fault (List String) :=
  ((d.get? option).map (argumentsOf (d.place option))).getD (.ok [])

def properties (d : Declared) (option : String) : Except Fault (List (String × String)) :=
  ((d.get? option).map (propertiesOf (d.place option))).getD (.ok [])

def mountpoint? (d : Declared) (option : String) : Except Fault (Option String) :=
  match d.get? option with
  | some v => some <$> mountpointOf (d.place option) v
  | none => .ok none

def mountpoint (d : Declared) (option : String) (default : Option Value) : Except Fault String := do
  mountpointOf (d.place option) (← d.require option default)

end Declared

end Provision
