import Provision.Run.Session
/-!
# Prerequisites

Every package provides executables that the scripts call.  A layout can be applied by the superuser, where none of the
executables of its packages is missing.
-/
namespace Provision

namespace Prerequisite

def executables : List (String × List String) := [
  ("bcachefs-tools", ["bcachefs"]),
  ("btrfs-progs", ["mkfs.btrfs", "btrfs"]),
  ("coreutils", ["mktemp"]),
  ("cryptsetup", ["cryptsetup"]),
  ("dosfstools", ["mkfs.vfat"]),
  ("e2fsprogs", ["mkfs.ext4"]),
  ("gnugrep", ["grep"]),
  ("lvm2", ["pvcreate", "vgcreate", "lvcreate", "vgchange"]),
  ("mdadm", ["mdadm"]),
  ("parted", ["parted"]),
  ("systemd", ["udevadm"]),
  ("util-linux", ["mount", "findmnt", "mkswap", "swapon"]),
  ("xfsprogs", ["mkfs.xfs"]),
  ("zfs", ["zpool", "zfs"])]

/-- The executables of a package that are missing; a package that is not known is reported. -/
def missingOf (env : Environment) (package : String) : Logged (List String) :=
  match executables.lookup package with
  | some es => pure (es.filter env.missing.contains)
  | none => do
    logWarning ("No known executable for package '" ++ package ++ "', not checking it")
    pure []

def missing (env : Environment) (packages : List String) : Logged (List String) := do
  let found ← packages.mapM (missingOf env)
  return found.flatten

def check (env : Environment) (simulating : Bool) (packages : List String) : Logged Unit := do
  if simulating then
    logInfo "Checking for required tools (simulated)"
    packages.forM (fun p => logInfo ("Package '" ++ p ++ "' would be checked"))
  else if env.user ≠ 0 then .fail .notRoot
  else
    let missing ← missing env packages
    if !missing.isEmpty then .fail (.missingTools missing)

end Prerequisite

end Provision
