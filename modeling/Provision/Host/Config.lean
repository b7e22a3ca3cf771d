import Provision.Host.Fact
/-!
# Host configuration

Facts grouped by concern.  Of several filesystems with one mountpoint the last stands, at the place of the first;
likewise for containers of one name.  A kernel module is listed once.
-/
namespace Provision

open Value (Entries)

structure FileSystem where
  device : Value
  fsType : Value
  options : List Value

structure SwapDevice where
  device : Value
  randomEncryption : Value

structure Container where
  device : Value
  keyFile : Option Value

structure HostConfig where
  /-- Filesystems by mountpoint. -/
  fileSystems : List (Value × FileSystem) := []
  swapDevices : List SwapDevice := []
  /-- Encrypted containers by name. -/
  containers : List (Value × Container) := []
  kernelModules : List Value := []

namespace HostConfig

def add (c : HostConfig) (f : Fact) : Except Fault HostConfig :=
  match f with
  | .filesystem mountpoint device fsType options =>
    if mountpoint.isKey then
      .ok { c with fileSystems := Entries.put c.fileSystems mountpoint ⟨device, fsType, options⟩ }
    else .error (.misuse .unhashable)
  | .swap device randomEncryption => .ok { c with swapDevices := c.swapDevices ++ [⟨device, randomEncryption⟩] }
  | .unlock name device keyFile =>
    if name.isKey then
      .ok { c with containers := Entries.put c.containers name ⟨device, if keyFile.isGiven then some keyFile else none⟩ }
    else .error (.misuse .unhashable)
  | .kernelModule module =>
    if c.kernelModules.any (Value.same module) then .ok c
    else .ok { c with kernelModules := c.kernelModules ++ [module] }

def ofFacts (facts : List Fact) : Except Fault HostConfig := facts.foldlM add {}

def ofValues (facts : List Value) : Except Fault HostConfig :=
  facts.foldlM (fun c v => do c.add (← Fact.ofValue v)) {}

def toValue (c : HostConfig) : Value :=
  .map [
    (.text "fileSystems", .map (c.fileSystems.map (fun e => (e.1,
      .map [(.text "device", e.2.device), (.text "fsType", e.2.fsType), (.text "options", .list e.2.options)])))),
    (.text "swapDevices", .list (c.swapDevices.map (fun s =>
      .map [(.text "device", s.device), (.text "randomEncryption", s.randomEncryption)]))),
    (.text "luksDevices", .map (c.containers.map (fun e => (e.1,
      .map ((.text "device", e.2.device) :: (e.2.keyFile.map (fun k => (Value.text "keyFile", k))).toList))))),
    (.text "kernelModules", .list c.kernelModules)]

end HostConfig

end Provision
