/-!
# References to top-level devices

A layout declares its devices in groups; a reference names a group and a device in it, declared or not.
-/
namespace Provision

/-- A name of a top-level device: its group and its name there. -/
structure DeviceRef where
  group : String
  name : String
  deriving DecidableEq, Repr, Inhabited

namespace DeviceRef

def text (r : DeviceRef) : String := r.group ++ "." ++ r.name

end DeviceRef

end Provision
