import Provision.Shell.Quote
import Provision.Text.Blank
import Provision.Device.Path
import Provision.Layout.Node
/-!
# Commands of the scripts

An `Action` is one thing that the creation script does, an `Activation` one that makes a device appear before the mounts,
a `Mounting` one filesystem or swap device.  Each is rendered as one or more lines of shell; all words that come from a
layout are quoted.  A `Step` of a script is a command, a comment or a hook.
-/
namespace Provision

/-- One thing that the creation script does. -/
inductive Action where
  | label (device : Value) (table : TableFormat)
  /-- Adds the partition that its layout numbers `index`; the command itself does not say the number. -/
  | addPartition (device index name fsType start stop : Value)
  | setFlag (device index : Value) (flag : String)
  /-- Waits until new block devices can be used. -/
  | settle
  | format (type : Value) (extraArgs : List String) (device : Value)
  | formatBtrfs (device : Value) (extraArgs : List String)
  | addSubvolume (device : Value) (extraArgs : List String) (path : String)
  | formatSwap (device : Value)
  | addPhysicalVolume (device : Value)
  | createGroup (name : Value) (devices : List String)
  | createVolume (group name size : Value) (inExtents : Bool) (type : Value) (extraArgs : List String)
  | encrypt (device keyFile : Value) (extraArgs : List String)
  | unlock (device name keyFile : Value)
  | createPool (name : Value) (mode : List String) (options rootOptions : Properties) (devices : List String)
  | createDataset (path : String) (options : Properties) (size : Option Value)
  | createArray (path level metadata : String) (devices : List String)

def propertyFlags (flag : String) (ps : Properties) : List String :=
  Shell.optionFlags flag (ps.map (fun p => p.1 ++ "=" ++ p.2))

def unlockWords (device name keyFile : Value) : List String :=
  ["cryptsetup", "luksOpen"] ++ device.words ++ name.words ++
    (if keyFile.isGiven then ["--key-file", keyFile.toText] else [])

namespace Action

def words : Action → List String
  | label device table => ["parted", "-s"] ++ device.words ++ ["--", "mklabel", table.name]
  | addPartition device _ name fsType start stop =>
    ["parted", "-s"] ++ device.words ++ ["--", "mkpart"] ++ name.words ++ fsType.words ++ start.words ++ stop.words
  | setFlag device index flag =>
    ["parted", "-s"] ++ device.words ++ ["--", "set"] ++ index.words ++ [flag, "on"]
  | settle => ["udevadm", "settle"]
  | format type extraArgs device => ("mkfs." ++ type.toText) :: extraArgs ++ device.words
  | formatBtrfs device extraArgs => "mkfs.btrfs" :: device.words ++ extraArgs
  | addSubvolume _ extraArgs _ => ["btrfs", "subvolume", "create"] ++ extraArgs
  | formatSwap device => "mkswap" :: device.words
  | addPhysicalVolume device => "pvcreate" :: device.words
  | createGroup name devices => "vgcreate" :: name.words ++ devices
  | createVolume group name size inExtents type extraArgs =>
    ["lvcreate", "--yes", if inExtents then "-l" else "-L"] ++ size.words ++ ["-n"] ++ name.words ++
      (if type.isGiven then ["--type=" ++ type.toText] else []) ++ extraArgs ++ group.words
  | encrypt device keyFile extraArgs =>
    ["cryptsetup", "-q", "luksFormat"] ++ device.words ++ keyFile.words ++ extraArgs
  | unlock device name keyFile => unlockWords device name keyFile
  | createPool name mode options rootOptions devices =>
    ["zpool", "create"] ++ name.words ++ mode ++ propertyFlags "-o" options ++ propertyFlags "-O" rootOptions ++ devices
  | createDataset path options size =>
    ["zfs", "create", path] ++ propertyFlags "-o" options ++ (size.map (fun s => ["-V", s.toText])).getD []
  | createArray path level metadata devices =>
    ["mdadm", "--create", path, "--level=" ++ level, "--raid-devices=" ++ toString devices.length,
     "--metadata=" ++ metadata, "--force", "--homehost=any"] ++ devices

/-- The lines of an action.  Settling first makes the kernel report all block devices; a subvolume is created in the top
level of its filesystem, mounted on a scratch directory meanwhile; the creation of an array is confirmed. -/
def script : Action → String
  | settle => "udevadm trigger --subsystem-match=block; udevadm settle\n"
  | addSubvolume device extraArgs path =>
    "(\n" ++
    "  MNTPOINT=$(mktemp -d \"$strata_devices_dir/btrfs.XXXXXX\")\n" ++
    "  " ++ Shell.commandLine ("mount" :: device.words) ++ " \"$MNTPOINT\" -o subvol=/\n" ++
    "  trap 'umount \"$MNTPOINT\"; rm -rf \"$MNTPOINT\"' EXIT\n" ++
    "  " ++ Shell.commandLine (addSubvolume device extraArgs path).words ++ " \"$MNTPOINT\"/" ++ Shell.quote path ++ "\n" ++
    ")\n"
  | createArray path level metadata devices =>
    "echo 'y' | " ++ Shell.commandLine (createArray path level metadata devices).words ++ "\n"
  | a => Shell.commandLine a.words ++ "\n"

end Action

inductive Activation where
  | unlock (device name keyFile : Value)
  | assembleArray (path : String)
  | importPool (name : Value)
  | activateGroup (name : Value)

namespace Activation

/-- The lines of an activation, which do nothing where the device is there already. -/
def script : Activation → String
  | unlock device name keyFile =>
    Shell.commandLine (["cryptsetup", "status"] ++ name.words) ++ " >/dev/null 2>/dev/null ||\n  " ++
      Shell.commandLine (unlockWords device name keyFile) ++ "\n"
  | assembleArray path => "[ -e " ++ Shell.quote path ++ " ] || mdadm --assemble --scan\n"
  | importPool name =>
    Shell.commandLine (["zpool", "list"] ++ name.words) ++ " >/dev/null 2>/dev/null || " ++
      Shell.commandLine (["zpool", "import"] ++ name.words) ++ "\n"
  | activateGroup name => Shell.commandLine (["vgchange", "-a", "y"] ++ name.words) ++ "\n"

end Activation

def targetPath (root mountpoint : String) : String :=
  String.ofList (root.toList.reverse.dropWhile (· == '/')).reverse ++ mountpoint

inductive Mounting where
  | filesystem (source : Value) (root mountpoint : String) (options : List String) (fsType : Value)
  | swap (device : String)

namespace Mounting

def words : Mounting → List String
  | filesystem source root mountpoint options fsType =>
    "mount" :: source.words ++ [targetPath root mountpoint] ++ (if fsType.isGiven then ["-t", fsType.toText] else []) ++
      Shell.optionFlags "-o" options ++ ["-o", "X-mount.mkdir"]
  | swap device => ["swapon", device]

/-- The condition under which nothing is left to do. -/
def guard : Mounting → String
  | filesystem source root mountpoint _ _ =>
    "findmnt " ++ Shell.quote source.toText ++ " " ++ Shell.quote (targetPath root mountpoint) ++ " >/dev/null 2>&1"
  | swap device => "swapon --show | grep -q " ++ Shell.quote ("^" ++ device ++ " ")

/-- The lines of a mounting: its command, unless there is nothing left to do. -/
def script (m : Mounting) : String :=
  "if ! " ++ m.guard ++ "; then\n  " ++ Shell.commandLine m.words ++ "\nfi\n"

end Mounting

/-- A hook as a block of its own, so that it can change nothing outside. -/
def hookScript (snippet : String) : String :=
  if snippet = "" then ""
  else
    let body := (snippet.toList.reverse.dropWhile (· == '\n')).reverse ++ ['\n']
    "(\n" ++ String.ofList (Text.indent [' ', ' '] body) ++ ")\n"

inductive Step (α : Type) where
  /-- A comment that names a node. -/
  | frame (kind : Kind) (label : Value)
  | hook (snippet : String)
  | run (command : α)

namespace Step

def title (kind : Kind) (label : Value) : String :=
  kind.name ++ (if label.isGiven then " " ++ label.toText else "")

def script {α : Type} (command : α → String) : Step α → String
  | frame kind label => "# " ++ title kind label ++ "\n"
  | hook snippet => hookScript snippet
  | run a => command a

def commands {α : Type} (steps : List (Step α)) : List α :=
  steps.filterMap (fun s => match s with
    | run a => some a
    | _ => none)

end Step

end Provision
