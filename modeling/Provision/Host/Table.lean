import Provision.Host.Config
import Provision.Traced
/-!
# Tables of the target system

The table of filesystems has a line of six fields, separated by tabs, for every filesystem, sorted by mountpoint, and then
one for every swap device.  The table of encrypted containers has a line of four fields for every container.
-/
namespace Provision

namespace HostConfig

def fstabHeader : String := "# /etc/fstab: static file system information, generated by strata\n"

def crypttabHeader : String := "# /etc/crypttab: encrypted block devices, generated by strata\n"

def tableLine (fields : List String) : String := "\t".intercalate fields ++ "\n"

/-- When a filesystem is checked: the root first, others after it, some never. -/
def passNumber (mountpoint fsType : Value) : Except Fault Nat :=
  match fsType with
  | .text s =>
    if ["zfs", "swap", "tmpfs"].contains s || s.startsWith "nfs" then .ok 0
    else if Value.same mountpoint (.text "/") then .ok 1
    else .ok 2
  | .bytes _ => .error (.misuse .wrongOperand)
  | _ => .error (.misuse .noTextOperation)

def optionsField (options : List Value) : Except Fault String := do
  let texts ← options.mapM (fun v => match v with
    | .text s => .ok s
    | _ => .error (.misuse .wrongOperand))
  let joined := ",".intercalate texts
  return if joined = "" then "defaults" else joined

def fileSystemLine (e : Value × FileSystem) : Except Fault String := do
  let options ← optionsField e.2.options
  Value.requireWritable [e.2.device, e.1, e.2.fsType]
  let pass ← passNumber e.1 e.2.fsType
  return tableLine [e.2.device.toText, e.1.toText, e.2.fsType.toText, options, "0", toString pass]

def swapLine (s : SwapDevice) : String := tableLine [s.device.toText, "none", "swap", "defaults", "0", "0"]

/-- The line of a swap device; the key of one that is encrypted anew each time is up to the host. -/
def renderSwap (s : SwapDevice) : Logged String := do
  Value.requireWritable [s.device]
  if s.randomEncryption.isGiven then
    logWarning ("Swap device " ++ s.device.toText ++
      " uses random encryption, which needs a crypttab entry managed by the host")
  return swapLine s

def sortedFileSystems (c : HostConfig) : Except Fault (List (Value × FileSystem)) :=
  if Value.areSortable (c.fileSystems.map (·.1)) then
    .ok (c.fileSystems.mergeSort (fun a b => !Value.less b.1 a.1))
  else .error (.misuse .wrongOperand)

def fstab (c : HostConfig) : Logged String := do
  let sorted ← c.sortedFileSystems
  let lines ← (sorted.mapM fileSystemLine : Except Fault (List String))
  let swaps ← c.swapDevices.mapM renderSwap
  return fstabHeader ++ String.join lines ++ String.join swaps

def containerLine (e : Value × Container) : Except Fault String := do
  Value.requireWritable ([e.1, e.2.device] ++ e.2.keyFile.toList)
  return tableLine [e.1.toText, e.2.device.toText, (e.2.keyFile.map Value.toText).getD "none", "luks"]

def crypttab (c : HostConfig) : Except Fault String := do
  let lines ← c.containers.mapM containerLine
  return crypttabHeader ++ String.join lines

end HostConfig

end Provision
