import Provision.Fault
/-!
# Host configuration facts

What a layout says to the host that it makes: filesystems and swap devices to mount, containers to unlock at boot, kernel
modules to load early.  A fact has a form as a mapping, which `Fact.toValue` writes and `Fact.ofValue` reads.
-/
namespace Provision

open Value (Entries)

inductive Fact where
  | filesystem (mountpoint device fsType : Value) (options : List Value)
  | swap (device randomEncryption : Value)
  | unlock (name device keyFile : Value)
  | kernelModule (module : Value)

namespace Fact

def toValue : Fact → Value
  | filesystem mountpoint device fsType options =>
    .map [(.text "fact", .text "filesystem"), (.text "mountpoint", mountpoint), (.text "device", device),
      (.text "fs_type", fsType), (.text "options", .list options)]
  | swap device randomEncryption =>
    .map [(.text "fact", .text "swap"), (.text "device", device), (.text "random_encryption", randomEncryption)]
  | unlock name device keyFile =>
    .map [(.text "fact", .text "unlock"), (.text "name", name), (.text "device", device), (.text "key_file", keyFile)]
  | kernelModule module => .map [(.text "fact", .text "kernel_module"), (.text "module", module)]

def require (es : Entries) (field : String) : Except Fault Value :=
  match Entries.get? es (.text field) with
  | some v => .ok v
  | none => .error (.misuse .noField)

/-- The items of a value that has items: the characters of a text, the keys of a mapping. -/
def itemsOf : Value → Except Fault (List Value)
  | .list xs | .set xs => .ok xs
  | .pair k v => .ok [k, v]
  | .text s => .ok (s.toList.map (fun c => .text c.toString))
  | .bytes bs => .ok (bs.map (fun b => .int b.toNat))
  | .map es => .ok (es.map (·.1))
  | _ => .error (.misuse .wrongOperand)

def ofValue (v : Value) : Except Fault Fact := do
  match v with
  | .map es =>
    let kind ← require es "fact"
    match kind with
    | .text "filesystem" =>
      let device ← require es "device"
      let fsType ← require es "fs_type"
      let options ← itemsOf (← require es "options")
      let mountpoint ← require es "mountpoint"
      return .filesystem mountpoint device fsType options
    | .text "swap" =>
      let device ← require es "device"
      let randomEncryption ← require es "random_encryption"
      return .swap device randomEncryption
    | .text "unlock" =>
      let device ← require es "device"
      let keyFile ← require es "key_file"
      let name ← require es "name"
      return .unlock name device keyFile
    | .text "kernel_module" => return .kernelModule (← require es "module")
    | kind => throw (.unknownFact kind)
  | _ => throw (.misuse .wrongOperand)

end Fact

end Provision
