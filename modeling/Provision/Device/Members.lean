import Provision.Traced
/-!
# Members of aggregates

Arrays, pools and volume groups are made of devices that lie elsewhere in a layout.  A `Recording` says that a device is
a member of a named aggregate of a group; `devicesOf` lists the devices recorded for one aggregate, in their order.
-/
namespace Provision

/-- A device recorded as a member of the aggregate `name` of `group`. -/
structure Recording where
  group : String
  name : Value
  device : Value

namespace Recording

def isFor (r : Recording) (group : String) (name : Value) : Bool := r.group == group && Value.same name r.name

def devicesOf (rs : List Recording) (group : String) (name : Value) : List Value :=
  (rs.filter (fun r => r.isFor group name)).map (·.device)

/-- The aggregates that have members, each once, by their first member. -/
def aggregates (rs : List Recording) : List Recording :=
  rs.foldl (fun seen r => if seen.any (fun s => r.isFor s.group s.name) then seen else seen ++ [r]) []

/-- Records a member; a name that cannot be a key is refused. -/
def record (r : Recording) : Logged Recording := do
  Value.requireWritable [r.device, r.name]
  logDebug ("Recording " ++ r.device.toText ++ " as member of " ++ r.group ++ "." ++ r.name.toText)
  if r.name.isKey then pure r else .fail (.misuse .unhashable)

/-- The devices of an aggregate as its creation needs them; an aggregate without members is reported. -/
def collect (rs : List Recording) (group : String) (name : Value) : Logged (List Value) := do
  if !name.isKey then .fail (.misuse .unhashable)
  else
    let devices := devicesOf rs group name
    if devices.isEmpty then
      Value.requireWritable [name]
      logWarning ("No member devices were found for " ++ group ++ "." ++ name.toText)
    pure devices

end Recording

end Provision
