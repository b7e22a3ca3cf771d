import Provision.Fault
/-!
# Device paths

Where a nested device is found: at a path derived from the device it is on and its number there, or at the fixed path
that the device mapper, a volume group, a pool or an array gives to a name.
-/
namespace Provision.DevicePath

/-- Families of device names, by how they number partitions. -/
inductive Family where
  /-- `/dev/sda`, `/dev/vdb`: the number follows. -/
  | letters
  /-- `/dev/disk/by-id/…`: `-part` and the number. -/
  | links
  /-- `/dev/nvme0n1`, `/dev/md/…`, `/dev/mmcblk0`: `p` and the number. -/
  | numbers
  deriving DecidableEq, Repr

/-- Whether more follows, and no line feed in it. -/
def isTail (s : List Char) : Bool := !s.isEmpty && s.all (· != '\n')

def extends_ (beginning s : List Char) : Bool :=
  beginning.isPrefixOf s && isTail (s.drop beginning.length)

def family? (device : String) : Option Family :=
  let s := device.toList
  if ["/dev/sd".toList, "/dev/vd".toList].any (extends_ · s) then some .letters
  else if extends_ "/dev/disk/".toList s then some .links
  else if ["/dev/nvme".toList, "/dev/md/".toList, "/dev/mmcblk".toList].any (extends_ · s) then some .numbers
  else none

/-- What stands between a device path and the number of a partition. -/
def Family.joint : Family → String
  | letters => ""
  | links => "-part"
  | numbers => "p"

def partition? (device : String) (number : String) : Option String :=
  (family? device).map (fun f => device ++ f.joint ++ number)

def partition (device : Value) (number : String) : Except Fault String :=
  match device with
  | .text d =>
    match partition? d number with
    | some p => .ok p
    | none => .error (.unsupportedNaming d)
  | _ => .error (.misuse .wrongOperand)

theorem partition_eq_ok_iff {d number p : String} :
    partition (.text d) number = .ok p ↔ ∃ f, family? d = some f ∧ p = d ++ f.joint ++ number := by
  unfold partition partition?
  cases h : family? d <;> simp [h, eq_comm]

def logicalVolume (group volume : String) : String := "/dev/" ++ group ++ "/" ++ volume

def poolVolume (pool dataset : String) : String := "/dev/zvol/" ++ pool ++ "/" ++ dataset

def mapper (name : String) : String := "/dev/mapper/" ++ name

def array (name : String) : String := "/dev/md/" ++ name

end Provision.DevicePath
