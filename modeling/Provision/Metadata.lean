import Provision.Device.Order
import Provision.Fault
/-!
# Metadata

Facts about a layout that its nodes contribute, kept as nested mappings and merged in traversal order: mappings are
merged key by key, lists are joined without repeating what is there, and of two other values the later stands.  The one
fact there is says which devices hold the members of an aggregate; `requirements` reads it back.
-/
namespace Provision

open Value (Entries)

namespace Metadata

mutual

/-- A value after a later one was merged into it. -/
def join : Value → Value → Value
  | .map base, .map update => .map (merge base update)
  | .list xs, .list ys => .list (xs ++ ys.filter (fun y => !xs.any (fun x => Value.same y x)))
  | _, v => v

def merge (base : Entries) : List (Value × Value) → Entries
  | [] => base
  | (k, v) :: rest =>
    let joined := match Entries.get? base k with
      | some current => join current v
      | none => v
    merge (Entries.put base k joined) rest

end

theorem merge_nil (base : Entries) : merge base [] = base := by rw [merge]

def mergeAll (parts : List Entries) : Entries := parts.foldl merge []

theorem mergeAll_concat (parts : List Entries) (part : Entries) :
    mergeAll (parts ++ [part]) = merge (mergeAll parts) part := by
  simp [mergeAll]

/-- The fact that the aggregate `name` of `group` has a member below a device. -/
def dependency (group : String) (name : Value) (producer : Value) : Except Fault Entries :=
  if name.isKey then
    .ok [(.text "dependencies", .map [(.text group, .map [(name, .list [producer])])])]
  else .error (.misuse .unhashable)

end Metadata

namespace DeviceRef

/-- A reference as a value: the list of its group and its name. -/
def toValue (r : DeviceRef) : Value := .list [.text r.group, .text r.name]

def ofValue? : Value → Option DeviceRef
  | .list [.text g, .text n] => some ⟨g, n⟩
  | _ => none

@[simp] theorem ofValue?_toValue (r : DeviceRef) : ofValue? r.toValue = some r := rfl

end DeviceRef

/-- The devices that hold members of one aggregate. -/
structure Requirement where
  consumer : DeviceRef
  producers : List DeviceRef
  deriving Repr

namespace Requirement

def edges (r : Requirement) : List Edge := r.producers.map (fun p => ⟨p, r.consumer⟩)

/-- The requirements of one aggregate; an aggregate whose name is no text is no device. -/
def forAggregate? (group : String) : Value × Value → Option Requirement
  | (.text name, .list producers) => some ⟨⟨group, name⟩, producers.filterMap DeviceRef.ofValue?⟩
  | _ => none

def ofGroup : Value × Value → List Requirement
  | (.text group, .map aggregates) => aggregates.filterMap (forAggregate? group)
  | _ => []

/-- The requirements that a mapping of groups states, in its order. -/
def ofValue : Value → List Requirement
  | .map groups => groups.flatMap ofGroup
  | _ => []

end Requirement

def Metadata.requirements (metadata : Entries) : List Requirement :=
  Requirement.ofValue (Entries.field metadata "dependencies")

def Requirement.sort (requirements : List Requirement) (devices : List DeviceRef) : Except Fault (List DeviceRef) :=
  (Order.sort devices (requirements.flatMap Requirement.edges)).mapError Fault.cycle

end Provision
