import Provision.Compile
import Provision.Proofs.Shell.Commands
/-!
# The programs of the scripts

The text of every step says which programs it calls (`Action.calls_script`, `Activation.calls_script`,
`Mounting.calls_script`): all words that come from a layout are quoted, so none of them is read as a command.
-/
namespace Provision

open Shell (Calls)

namespace Action

def programs : Action → List String
  | settle => ["udevadm", "udevadm"]
  | addSubvolume .. => ["mktemp", "mount", "trap", "btrfs"]
  | createArray .. => ["echo", "mdadm"]
  | a => a.words.take 1

theorem isBefore_mkfs (format : String) : Shell.isBefore ("mkfs." ++ format).toList = false := by
  rw [String.toList_append]
  rfl

theorem calls_addSubvolume (device : Value) (extraArgs : List String) (path : String) :
    Calls .program (addSubvolume device extraArgs path).script (addSubvolume device extraArgs path).programs .program := by
  have hopen : Calls .program "(\n" [] .program := .literal rfl (fun _ => rfl)
  have hscratch : Calls .program "  MNTPOINT=$(mktemp -d \"$strata_devices_dir/btrfs.XXXXXX\")\n" ["mktemp"] .program :=
    .literal rfl (fun _ => rfl)
  have hmargin : Calls .program "  " [] .program := .literal rfl (fun _ => rfl)
  have hmount : Calls .program (Shell.commandLine ("mount" :: device.words) ++ " \"$MNTPOINT\" -o subvol=/\n") ["mount"]
      .program := .commandLine (by decide) _ rfl (.literal rfl fun _ => rfl)
  have htrap : Calls .program "  trap 'umount \"$MNTPOINT\"; rm -rf \"$MNTPOINT\"' EXIT\n" ["trap"] .program :=
    .literal rfl (fun _ => rfl)
  have hpath : Calls .argument (" \"$MNTPOINT\"/" ++ Shell.quote path ++ "\n") [] .program := fun rest => by
    have htext : (" \"$MNTPOINT\"/" ++ Shell.quote path ++ "\n").toList ++ rest =
        ' ' :: '"' :: '$' :: 'M' :: 'N' :: 'T' :: 'P' :: 'O' :: 'I' :: 'N' :: 'T' :: '"' :: '/' ::
          (Shell.quoteChars path.toList ++ '\n' :: rest) := by
      simp [Shell.quote]
    rw [htext]
    exact Shell.programsFrom_argument_quote "$MNTPOINT/".toList false path.toList rfl
  have hcreate : Calls .program (Shell.commandLine (addSubvolume device extraArgs path).words ++
      (" \"$MNTPOINT\"/" ++ Shell.quote path ++ "\n")) ["btrfs"] .program :=
    .commandLine (by decide) _ (.append_toList (.append_toList (by decide +kernel) _) _) hpath
  have hclose : Calls .program ")\n" [] .program := .literal rfl (fun _ => rfl)
  have hall := hopen.append (hscratch.append (hmargin.append (hmount.append (htrap.append (hmargin.append
    (hcreate.append hclose))))))
  have htext : (addSubvolume device extraArgs path).script =
      "(\n" ++ "  MNTPOINT=$(mktemp -d \"$strata_devices_dir/btrfs.XXXXXX\")\n" ++
      "  " ++ Shell.commandLine ("mount" :: device.words) ++ " \"$MNTPOINT\" -o subvol=/\n" ++
      "  trap 'umount \"$MNTPOINT\"; rm -rf \"$MNTPOINT\"' EXIT\n" ++
      "  " ++ Shell.commandLine (addSubvolume device extraArgs path).words ++ " \"$MNTPOINT\"/" ++ Shell.quote path ++
      "\n" ++ ")\n" := rfl
  rw [htext]
  simp only [String.append_assoc] at hall ⊢
  exact hall

theorem calls_createArray (path level metadata : String) (devices : List String) :
    Calls .program (createArray path level metadata devices).script (createArray path level metadata devices).programs
      .program := by
  have hconfirm : Calls .program "echo 'y' | " ["echo"] .program := .literal rfl (fun _ => rfl)
  have hcreate : Calls .program (Shell.commandLine (createArray path level metadata devices).words ++ "\n")
      ["mdadm"] .program :=
    .commandLine_end (by decide) _
  have hall := hconfirm.append hcreate
  rwa [← String.append_assoc] at hall

/-- **An action calls its programs**, whatever its words are. -/
theorem calls_script : ∀ a : Action, Calls .program a.script a.programs .program
  | label .. | addPartition .. | setFlag .. | formatBtrfs .. | formatSwap .. | addPhysicalVolume .. | createGroup ..
  | createVolume .. | encrypt .. | unlock .. | createPool .. | createDataset .. => .commandLine_end (by decide) _
  | format type _ _ => .commandLine_end (isBefore_mkfs type.toText) _
  | settle => .literal rfl (fun _ => rfl)
  | addSubvolume device extraArgs path => calls_addSubvolume device extraArgs path
  | createArray path level metadata devices => calls_createArray path level metadata devices

end Action

namespace Activation

def programs : Activation → List String
  | unlock .. => ["cryptsetup", "cryptsetup"]
  | assembleArray _ => ["[", "mdadm"]
  | importPool _ => ["zpool", "zpool"]
  | activateGroup _ => ["vgchange"]

/-- **An activation calls its programs**, whatever its words are. -/
theorem calls_script : ∀ a : Activation, Calls .program a.script a.programs .program
  | unlock device name keyFile => by
    have hopened : Calls .program (Shell.commandLine (["cryptsetup", "status"] ++ name.words) ++
        " >/dev/null 2>/dev/null ||\n  ") ["cryptsetup"] .program :=
      .commandLine (by decide) _ rfl (.literal rfl fun _ => rfl)
    have hopen : Calls .program (Shell.commandLine (unlockWords device name keyFile) ++ "\n") ["cryptsetup"] .program :=
      .commandLine_end (by decide) _
    have hall := hopened.append hopen
    rwa [← String.append_assoc] at hall
  | assembleArray path => by
    have htest : Calls .program "[ -e " ["["] .argument := .literal rfl (fun _ => rfl)
    have hpath : Calls .argument (Shell.quote path ++ " ] || mdadm --assemble --scan\n") ["mdadm"] .program :=
      .quote (.literal rfl fun _ => rfl) path rfl
    have hall := htest.append hpath
    rwa [← String.append_assoc] at hall
  | importPool name => by
    have hlisted : Calls .program (Shell.commandLine (["zpool", "list"] ++ name.words) ++ " >/dev/null 2>/dev/null || ")
        ["zpool"] .program := .commandLine (by decide) _ rfl (.literal rfl fun _ => rfl)
    have himport : Calls .program (Shell.commandLine (["zpool", "import"] ++ name.words) ++ "\n") ["zpool"] .program :=
      .commandLine_end (by decide) _
    have hall := hlisted.append himport
    rwa [← String.append_assoc] at hall
  | activateGroup _ => .commandLine_end (by decide) _

end Activation

namespace Mounting

def programs : Mounting → List String
  | filesystem .. => ["findmnt", "mount"]
  | swap _ => ["swapon", "grep", "swapon"]

theorem calls_command (w : String) (ws : List String) (hw : Shell.isBefore w.toList = false) :
    Calls .program (Shell.commandLine (w :: ws) ++ "\nfi\n") [w] .program :=
  .commandLine hw ws rfl (.literal rfl fun _ => rfl)

/-- **A mounting calls its programs**, whatever its words are. -/
theorem calls_script : ∀ m : Mounting, Calls .program m.script m.programs .program
  | filesystem source root mountpoint options fsType => by
    have hif : Calls .program "if ! " [] .program := .literal rfl (fun _ => rfl)
    have hfind : Calls .program "findmnt " ["findmnt"] .argument := .literal rfl (fun _ => rfl)
    have hspace : Calls .argument " " [] .argument := .literal rfl (fun _ => rfl)
    have hquiet : Calls .argument (" >/dev/null 2>&1" ++ "; then\n  ") [] .program := by
      have htext : " >/dev/null 2>&1" ++ "; then\n  " = " >/dev/null 2>&1; then\n  " := by simp
      rw [htext]
      exact .literal rfl (fun _ => rfl)
    have htarget := hquiet.quote (targetPath root mountpoint) (.append_toList (by decide +kernel) _)
    have hsource := (hspace.append htarget).quote source.toText (.append_toList (by decide +kernel) _)
    have hmount : Calls .program (Shell.commandLine (filesystem source root mountpoint options fsType).words ++ "\nfi\n")
        ["mount"] .program := calls_command _ _ (by decide)
    have hall := hif.append (hfind.append (hsource.append hmount))
    have htext : (filesystem source root mountpoint options fsType).script =
        "if ! " ++ ("findmnt " ++ Shell.quote source.toText ++ " " ++ Shell.quote (targetPath root mountpoint) ++
          " >/dev/null 2>&1") ++ "; then\n  " ++
          Shell.commandLine (filesystem source root mountpoint options fsType).words ++ "\nfi\n" := rfl
    rw [htext]
    simp only [String.append_assoc] at hall ⊢
    exact hall
  | swap device => by
    have hif : Calls .program "if ! " [] .program := .literal rfl (fun _ => rfl)
    have hshow : Calls .program "swapon --show | grep -q " ["swapon", "grep"] .argument := .literal rfl (fun _ => rfl)
    have hdevice : Calls .argument (Shell.quote ("^" ++ device ++ " ") ++ "; then\n  ") [] .program :=
      .quote (.literal rfl fun _ => rfl) _ rfl
    have henable : Calls .program (Shell.commandLine (swap device).words ++ "\nfi\n") ["swapon"] .program :=
      calls_command _ _ (by decide)
    have hall := hif.append (hshow.append (hdevice.append henable))
    have htext : (swap device).script = "if ! " ++ ("swapon --show | grep -q " ++ Shell.quote ("^" ++ device ++ " ")) ++
        "; then\n  " ++ Shell.commandLine (swap device).words ++ "\nfi\n" := rfl
    rw [htext]
    simp only [String.append_assoc] at hall ⊢
    exact hall

end Mounting

namespace Step

variable {α : Type}

def programs (ofCommand : α → List String) : Step α → List String
  | run a => ofCommand a
  | _ => []

/-- Whether a step calls nothing but its command: it is no hook with a text, and a comment keeps to its line. -/
def IsPlain : Step α → Prop
  | frame kind label => '\n' ∉ (title kind label).toList
  | hook snippet => snippet = ""
  | run _ => True

instance : ∀ s : Step α, Decidable s.IsPlain
  | frame kind label => inferInstanceAs (Decidable ('\n' ∉ (title kind label).toList))
  | hook snippet => inferInstanceAs (Decidable (snippet = ""))
  | run _ => .isTrue trivial

theorem calls_script {text : α → String} {ofCommand : α → List String}
    (h : ∀ a, Calls .program (text a) (ofCommand a) .program) :
    ∀ s : Step α, s.IsPlain → Calls .program (s.script text) (s.programs ofCommand) .program
  | frame kind label, hs => by
    have hline : '\n' ∉ (" " ++ title kind label).toList := by
      rw [String.toList_append, List.mem_append, not_or]
      exact ⟨by decide, hs⟩
    have htext : script text (frame kind label) = "#" ++ (" " ++ title kind label) ++ "\n" := by
      rw [← String.append_assoc]
      rfl
    rw [htext]
    exact .comment hline
  | hook snippet, hs => by
    rw [script, hs]
    exact .empty
  | run a, _ => h a

end Step

theorem calls_creationText {steps : List (Step Action)} (h : ∀ s ∈ steps, s.IsPlain) :
    Calls .program (creationText steps) (steps.flatMap (Step.programs Action.programs)) .program :=
  .join (fun s hs => Step.calls_script Action.calls_script s (h s hs))

theorem calls_activationText {steps : List (Step Activation)} (h : ∀ s ∈ steps, s.IsPlain) :
    Calls .program (activationText steps) (steps.flatMap (Step.programs Activation.programs)) .program :=
  .join (fun s hs => Step.calls_script Activation.calls_script s (h s hs))

/-- **What a creation script calls.** -/
theorem commandWords_creation {steps : List (Step Action)} (h : ∀ s ∈ steps, s.IsPlain) :
    Shell.commandWords (Layout.createPreamble ++ creationText steps) =
      ["set", "mktemp", "trap"] ++ steps.flatMap (Step.programs Action.programs) := by
  have hpreamble : Calls .program Layout.createPreamble ["set", "mktemp", "trap"] .program := .literal rfl (fun _ => rfl)
  exact (hpreamble.append (calls_creationText h)).commandWords

/-- **What a mount script calls.** -/
theorem commandWords_mountText {f : MountFragment} (h : ∀ s ∈ f.activation, s.IsPlain) :
    Shell.commandWords (Layout.mountText f) = ["set"] ++ f.activation.flatMap (Step.programs Activation.programs) ++
      f.mounts.sorted.flatMap (fun m => m.2.programs) := by
  have hset : Calls .program Layout.mountPreamble ["set"] .program := .literal rfl (fun _ => rfl)
  have hdevices : Calls .program "# activate devices\n" [] .program := .literal rfl (fun _ => rfl)
  have hheading : Calls .program "\n# mount filesystems\n" [] .program := .literal rfl (fun _ => rfl)
  have hmounts : Calls .program (String.join (f.mounts.sorted.map (fun m => m.2.script)))
      (f.mounts.sorted.flatMap (fun m => m.2.programs)) .program := .join (fun m _ => m.2.calls_script)
  have hall := (((hset.append hdevices).append (calls_activationText h)).append hheading).append hmounts
  rw [List.append_nil, List.append_nil] at hall
  exact hall.commandWords

end Provision
