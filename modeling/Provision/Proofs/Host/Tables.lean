import Provision.Proofs.Host.Entries
import Provision.Proofs.Mount.Agreement
/-!
# The tables that facts ask for

What the facts of a layout say to the host is a list of entries: for every mountpoint its last filesystem, for every
swap device an entry, for every container its last unlocking.  The tables are written without codes, so they read back
as these entries exactly where all fields can be written and every field of every entry is read as it is written
(`tables_read_back_iff`).
-/
namespace Provision

open Value (entry node)

namespace Table

def optionsField (options : List Value) : String :=
  if options.isEmpty then "defaults" else ",".intercalate (options.map Value.toText)

def passField (mountpoint fsType : String) : String :=
  if ["zfs", "swap", "tmpfs"].contains fsType || fsType.startsWith "nfs" then "0" else if mountpoint = "/" then "1" else "2"

def fileSystemEntry (e : String × FileSystem) : List String :=
  [e.2.device.toText, e.1, e.2.fsType.toText, optionsField e.2.options, "0", passField e.1 e.2.fsType.toText]

def swapEntry (s : SwapDevice) : List String := [s.device.toText, "none", "swap", "defaults", "0", "0"]

def containerEntry (e : Value × Container) : List String :=
  [e.1.toText, e.2.device.toText, (e.2.keyFile.map Value.toText).getD "none", "luks"]

end Table

namespace Fact

/-- **The entries of filesystems and swap devices** that facts ask for. -/
def fstabEntries (facts : List Fact) : List (List String) :=
  (fileSystems facts).sorted.map Table.fileSystemEntry ++ (facts.filterMap swapDevice?).map Table.swapEntry

/-- **The entries of containers** that facts ask for. -/
def crypttabEntries (facts : List Fact) : List (List String) := (containers facts).map Table.containerEntry

/-- Whether the names of all containers can be keys. -/
def Named (facts : List Fact) : Prop := ∀ name device keyFile, Fact.unlock name device keyFile ∈ facts → name.isKey = true

/-- Whether the table of filesystems can be written: the types are texts, and no device has a number of too many digits. -/
structure HasFstab (facts : List Fact) : Prop where
  types : ∀ e ∈ fileSystems facts, ∃ t, e.2.fsType = .text t
  devices : ∀ e ∈ fileSystems facts, e.2.device.isWritable = true
  swapDevices : ∀ s ∈ facts.filterMap swapDevice?, s.device.isWritable = true

/-- Whether the table of containers can be written: no name, device or key file has a number of too many digits. -/
def HasCrypttab (facts : List Fact) : Prop :=
  ∀ e ∈ containers facts, ∀ v ∈ [e.1, e.2.device] ++ e.2.keyFile.toList, v.isWritable = true

end Fact

namespace HostConfig

def writtenEntry (e : String × FileSystem) : List String :=
  [e.2.device.toText, e.1, e.2.fsType.toText,
    if ",".intercalate (e.2.options.map Value.toText) = "" then "defaults"
      else ",".intercalate (e.2.options.map Value.toText),
    "0", Table.passField e.1 e.2.fsType.toText]

theorem optionsField_optionValues (os : List String) :
    optionsField (Spec.optionValues os) = .ok (if ",".intercalate os = "" then "defaults" else ",".intercalate os) := by
  refine except_bind_eq_ok_iff.2 ⟨os, ?_, rfl⟩
  rw [except_mapM_eq_ok_iff, Spec.optionValues, List.forall₂_map_left_iff, List.forall₂_same]
  exact fun _ _ => rfl

theorem exists_passNumber (m t : String) :
    ∃ n, passNumber (.text m) (.text t) = .ok n ∧ toString n = Table.passField m t := by
  have hroot : Value.same (.text m) (.text "/") = true ↔ m = "/" := by
    rw [Value.same_text_iff, Value.text.injEq, eq_comm]
  simp only [passNumber, Table.passField, hroot]
  split_ifs <;> exact ⟨_, rfl, rfl⟩

theorem fileSystemLine_of_texts (m t : String) {device : Value} (hdevice : device.isWritable = true) (os : List String) :
    fileSystemLine (.text m, ⟨device, .text t, Spec.optionValues os⟩) =
      .ok (tableLine (writtenEntry (m, ⟨device, .text t, Spec.optionValues os⟩))) := by
  obtain ⟨n, hn, hpass⟩ := exists_passNumber m t
  have hwritten : Value.requireWritable [device, .text m, .text t] = .ok () :=
    Value.requireWritable_eq_ok_iff.2 (by simp [hdevice, Value.isWritable])
  refine except_bind_eq_ok_iff.2 ⟨_, optionsField_optionValues os, except_bind_eq_ok_iff.2 ⟨(), hwritten,
    except_bind_eq_ok_iff.2 ⟨n, hn, ?_⟩⟩⟩
  have htype : (Value.text t).toText = t := rfl
  simp only [writtenEntry, Spec.map_toText_optionValues, htype, ← hpass]
  rfl

theorem fileSystemLine_eq_ok_iff {e : String × FileSystem} (hoptions : ∃ os, e.2.options = Spec.optionValues os)
    {line : String} :
    fileSystemLine (.text e.1, e.2) = .ok line ↔
      (∃ t, e.2.fsType = .text t) ∧ e.2.device.isWritable = true ∧ line = tableLine (writtenEntry e) := by
  obtain ⟨m, device, fsType, options⟩ := e
  obtain ⟨os, rfl⟩ : ∃ os, options = Spec.optionValues os := hoptions
  constructor
  · intro h
    have hdevice : device.isWritable = true := by
      obtain ⟨_, -, h⟩ := except_bind_eq_ok_iff.1 h
      obtain ⟨_, hwritten, -⟩ := except_bind_eq_ok_iff.1 h
      exact Value.requireWritable_eq_ok_iff.1 hwritten _ List.mem_cons_self
    cases fsType
    case text t => exact ⟨⟨t, rfl⟩, hdevice, Except.ok.inj (h.symm.trans (fileSystemLine_of_texts m t hdevice os))⟩
    all_goals
      obtain ⟨_, -, h⟩ := except_bind_eq_ok_iff.1 h
      obtain ⟨_, -, h⟩ := except_bind_eq_ok_iff.1 h
      obtain ⟨_, hpass, -⟩ := except_bind_eq_ok_iff.1 h
      cases hpass
  · rintro ⟨⟨t, ht⟩, hdevice, rfl⟩
    obtain rfl : fsType = .text t := ht
    exact fileSystemLine_of_texts m t hdevice os

theorem containerLine_eq_ok_iff {e : Value × Container} {line : String} : containerLine e = .ok line ↔
    (∀ v ∈ [e.1, e.2.device] ++ e.2.keyFile.toList, v.isWritable = true) ∧ line = tableLine (Table.containerEntry e) := by
  rw [← Value.requireWritable_eq_ok_iff]
  constructor
  · intro h
    obtain ⟨_, hwritten, h⟩ := except_bind_eq_ok_iff.1 h
    exact ⟨hwritten, (Except.ok.inj h).symm⟩
  · rintro ⟨hwritten, rfl⟩
    exact except_bind_eq_ok_iff.2 ⟨(), hwritten, rfl⟩

/-- **The rendered table of containers**, entry by entry. -/
theorem crypttab_eq_ok_iff {c : HostConfig} {text : String} : c.crypttab = .ok text ↔
    (∀ e ∈ c.containers, ∀ v ∈ [e.1, e.2.device] ++ e.2.keyFile.toList, v.isWritable = true) ∧
      text = crypttabHeader ++ String.join ((c.containers.map Table.containerEntry).map tableLine) := by
  constructor
  · intro h
    obtain ⟨lines, hlines, h⟩ := except_bind_eq_ok_iff.1 h
    have hwritten (e : Value × Container) (he : e ∈ c.containers) :
        ∀ v ∈ [e.1, e.2.device] ++ e.2.keyFile.toList, v.isWritable = true := by
      obtain ⟨line, hline⟩ := exists_of_except_mapM hlines he
      exact (containerLine_eq_ok_iff.1 hline).1
    have hmap := except_mapM_eq_ok_map fun e he => containerLine_eq_ok_iff.2 ⟨hwritten e he, rfl⟩
    obtain rfl := Except.ok.inj (hlines.symm.trans hmap)
    exact ⟨hwritten, by rw [List.map_map]; exact (Except.ok.inj h).symm⟩
  · rintro ⟨hwritten, rfl⟩
    refine except_bind_eq_ok_iff.2 ⟨_, except_mapM_eq_ok_map fun e he => containerLine_eq_ok_iff.2 ⟨hwritten e he, rfl⟩, ?_⟩
    rw [List.map_map]
    rfl

theorem writtenEntry_eq {e : String × FileSystem} (h : ∀ f ∈ Table.fileSystemEntry e, f ≠ "") :
    writtenEntry e = Table.fileSystemEntry e := by
  obtain ⟨m, device, fsType, options⟩ := e
  have hoptions : Table.optionsField options ≠ "" := h _ (by simp [Table.fileSystemEntry])
  cases options with
  | nil => rfl
  | cons o os =>
    have hjoined : ",".intercalate ((o :: os).map Value.toText) ≠ "" := hoptions
    rw [writtenEntry, if_neg hjoined]
    rfl

end HostConfig

namespace Fact

def writtenEntries (facts : List Fact) : List (List String) :=
  (fileSystems facts).sorted.map HostConfig.writtenEntry ++ (facts.filterMap swapDevice?).map Table.swapEntry

variable {facts : List Fact}

theorem writtenEntries_eq (h : ∀ e ∈ fstabEntries facts, ∀ f ∈ e, f ≠ "") : writtenEntries facts = fstabEntries facts :=
  congrArg (· ++ _) (List.map_congr_left (fun _ he =>
    HostConfig.writtenEntry_eq (h _ (List.mem_append_left _ (List.mem_map_of_mem he)))))

theorem ne_nil_of_mem_fstabEntries : ∀ e ∈ fstabEntries facts, e ≠ [] :=
  List.forall_mem_append.2 ⟨List.forall_mem_map.2 (fun _ _ => List.cons_ne_nil _ _),
    List.forall_mem_map.2 (fun _ _ => List.cons_ne_nil _ _)⟩

theorem ne_nil_of_mem_crypttabEntries : ∀ e ∈ crypttabEntries facts, e ≠ [] :=
  List.forall_mem_map.2 (fun _ _ => List.cons_ne_nil _ _)

end Fact

namespace Layout

variable {tree : Value} {l : Layout} {facts : List Fact} {c : HostConfig}

theorem exists_options_of_mem_fileSystems (hl : l.WellFormed) (hfacts : l.facts = .ok facts) {e : String × FileSystem}
    (he : e ∈ Fact.fileSystems facts) : ∃ os, e.2.options = Spec.optionValues os := by
  obtain ⟨d, hd, heq⟩ := exists_of_mem_lastOf e he
  obtain ⟨fact, hfact, hd⟩ := List.mem_filterMap.1 hd
  unfold Fact.fileSystem? at hd
  split at hd
  · obtain rfl := Option.some.inj hd
    obtain ⟨-, os, -, hos⟩ := texts_of_mem_facts hl hfacts hfact
    exact ⟨os, heq ▸ hos⟩
  · cases hd

/-- **The rendered table of filesystems**, entry by entry. -/
theorem fstab_eq_ok_iff (hl : l.WellFormed) (hfacts : l.facts = .ok facts) (hc : HostConfig.ofFacts facts = .ok c)
    {text : String} : c.fstab.outcome = .ok text ↔ Fact.HasFstab facts ∧
      text = HostConfig.fstabHeader ++ String.join ((Fact.writtenEntries facts).map HostConfig.tableLine) := by
  have hes := isTable_of_ofFacts hl hfacts hc
  obtain ⟨-, hswap, -⟩ := ofFacts_ok hl hfacts hc
  have hline {e : String × FileSystem} (he : e ∈ Fact.fileSystems facts) {line : String} :
      HostConfig.fileSystemLine (.text e.1, e.2) = .ok line ↔
        (∃ t, e.2.fsType = .text t) ∧ e.2.device.isWritable = true ∧
          line = HostConfig.tableLine (HostConfig.writtenEntry e) :=
    HostConfig.fileSystemLine_eq_ok_iff (exists_options_of_mem_fileSystems hl hfacts he)
  have htext {text : String} (h : c.fstab.outcome = .ok text) : Fact.HasFstab facts ∧
      text = HostConfig.fstabHeader ++ String.join ((Fact.writtenEntries facts).map HostConfig.tableLine) := by
    obtain ⟨-, hswaps⟩ := (HostConfig.exists_fstab_iff hes).1 ⟨text, h⟩
    obtain ⟨line, hlines, rfl⟩ := HostConfig.fstab_of_isTable hes h
    refine ⟨⟨fun e he => ((hline he).1 (hlines e he)).1, fun e he => ((hline he).1 (hlines e he)).2.1, hswap ▸ hswaps⟩, ?_⟩
    have hsorted : (Fact.fileSystems facts).sorted.map line =
        ((Fact.fileSystems facts).sorted.map HostConfig.writtenEntry).map HostConfig.tableLine := by
      rw [List.map_map]
      exact List.map_congr_left (fun e he =>
        ((hline ((ByPath.perm_sorted _).mem_iff.1 he)).1 (hlines e ((ByPath.perm_sorted _).mem_iff.1 he))).2.2)
    rw [Fact.writtenEntries, List.map_append, String.join_append, ← hsorted, hswap, List.map_map, String.append_assoc]
    rfl
  refine ⟨htext, fun ⟨hhas, heq⟩ => ?_⟩
  obtain ⟨text', h⟩ := (HostConfig.exists_fstab_iff hes).2
    ⟨fun e he => ⟨_, (hline he).2 ⟨hhas.types e he, hhas.devices e he, rfl⟩⟩, hswap.symm ▸ hhas.swapDevices⟩
  rwa [heq, ← (htext h).2]

end Layout

/-- **Which tables read back.**  The table of filesystems is rendered, and reads back as an entry for every mountpoint,
that of its last fact, and one for every swap device, exactly where the names of all containers can be keys, the types
of these filesystems are texts, the devices can be written, and every field is read as it is written; the table of
containers, as an entry for every name, where the names can be keys and every field can be written and is read as it is
written. -/
theorem tables_read_back_iff {tree : Value} {l : Layout} (hl : (Layout.read tree).outcome = .ok l) {facts : List Fact}
    (hfacts : l.facts = .ok facts) :
    ((∃ c text, HostConfig.ofFacts facts = .ok c ∧ c.fstab.outcome = .ok text ∧
        Table.entries text = Fact.fstabEntries facts) ↔
      Fact.Named facts ∧ Fact.HasFstab facts ∧ ∀ e ∈ Fact.fstabEntries facts, Table.IsEntry (e.map String.toList)) ∧
    ((∃ c text, HostConfig.ofFacts facts = .ok c ∧ c.crypttab = .ok text ∧
        Table.entries text = Fact.crypttabEntries facts) ↔
      Fact.Named facts ∧ Fact.HasCrypttab facts ∧
        ∀ e ∈ Fact.crypttabEntries facts, Table.IsEntry (e.map String.toList)) := by
  have hwell := Layout.wellFormed_of_read hl
  have hgroup : (∃ c, HostConfig.ofFacts facts = .ok c) ↔ Fact.Named facts := Layout.exists_ofFacts_iff hwell hfacts
  have hfstab := Table.entries_table_iff Table.isComment_fstabHeader (@Fact.ne_nil_of_mem_fstabEntries facts)
  have hcrypttab := Table.entries_table_iff Table.isComment_crypttabHeader (@Fact.ne_nil_of_mem_crypttabEntries facts)
  have hcontainers {c : HostConfig} (hc : HostConfig.ofFacts facts = .ok c) : c.containers = Fact.containers facts :=
    (Layout.ofFacts_ok hwell hfacts hc).2.2
  refine ⟨⟨?_, ?_⟩, ⟨?_, ?_⟩⟩
  · rintro ⟨c, text, hc, htext, hread⟩
    obtain ⟨hhas, rfl⟩ := (Layout.fstab_eq_ok_iff hwell hfacts hc).1 htext
    rw [Fact.writtenEntries_eq (fun e he => Table.ne_empty_of_mem_entries (hread ▸ he)), hfstab] at hread
    exact ⟨hgroup.1 ⟨c, hc⟩, hhas, hread⟩
  · rintro ⟨hnamed, hhas, hentries⟩
    obtain ⟨c, hc⟩ := hgroup.2 hnamed
    refine ⟨c, _, hc, (Layout.fstab_eq_ok_iff hwell hfacts hc).2 ⟨hhas, rfl⟩, ?_⟩
    rw [Fact.writtenEntries_eq (fun e he f hf hempty => ?_), hfstab]
    · exact hentries
    · exact ((hentries e he).fields _ (List.mem_map_of_mem hf)).ne_nil (by rw [hempty]; rfl)
  · rintro ⟨c, text, hc, htext, hread⟩
    obtain ⟨hhas, rfl⟩ := HostConfig.crypttab_eq_ok_iff.1 htext
    rw [hcontainers hc] at hhas hread
    exact ⟨hgroup.1 ⟨c, hc⟩, hhas, hcrypttab.1 hread⟩
  · rintro ⟨hnamed, hhas, hentries⟩
    obtain ⟨c, hc⟩ := hgroup.2 hnamed
    rw [Fact.HasCrypttab, ← hcontainers hc] at hhas
    refine ⟨c, _, hc, HostConfig.crypttab_eq_ok_iff.2 ⟨hhas, rfl⟩, ?_⟩
    rw [hcontainers hc]
    exact hcrypttab.2 hentries

/-- A filesystem in a container beside a swap device. -/
theorem tables_read_back_of_container :
    let tree : Value := .map [entry "disk" (.map [
      entry "a" (node "disk" [entry "device" (.text "/dev/sda"), entry "content" (node "luks" [entry "name" (.text "secret"),
        entry "keyFile" (.text "/root/key"), entry "content" (node "filesystem" [entry "format" (.text "ext4"),
          entry "mountpoint" (.text "/"), entry "mountOptions" (.list [.text "noatime", .text "discard"])])])]),
      entry "b" (node "disk" [entry "device" (.text "/dev/sdb"), entry "content" (node "swap" [])])])]
    let facts : List Fact := [.unlock (.text "secret") (.text "/dev/sda") (.text "/root/key"),
      .filesystem (.text "/") (.text "/dev/mapper/secret") (.text "ext4") [.text "noatime", .text "discard"],
      .swap (.text "/dev/sdb") (.bool false)]
    ∃ l, (Layout.read tree).outcome = .ok l ∧ l.facts = .ok facts ∧
      (∃ c text, HostConfig.ofFacts facts = .ok c ∧ c.fstab.outcome = .ok text ∧
        Table.entries text = [["/dev/mapper/secret", "/", "ext4", "noatime,discard", "0", "1"],
          ["/dev/sdb", "none", "swap", "defaults", "0", "0"]]) ∧
      ∃ c text, HostConfig.ofFacts facts = .ok c ∧ c.crypttab = .ok text ∧
        Table.entries text = [["secret", "/dev/sda", "/root/key", "luks"]] := by
  intro tree facts
  have hchecked : (Layout.read tree).outcome.toOption.bind (fun l => l.facts.toOption) = some facts := by decide +kernel
  obtain ⟨l, hl, hfacts⟩ := Option.bind_eq_some_iff.1 hchecked
  replace hl := eq_ok_of_toOption hl
  replace hfacts := eq_ok_of_toOption hfacts
  obtain ⟨hfstab, hcrypttab⟩ := tables_read_back_iff hl hfacts
  have hfileSystems : Fact.fileSystems facts =
      [("/", ⟨.text "/dev/mapper/secret", .text "ext4", [.text "noatime", .text "discard"]⟩)] := lastOf_singleton _
  have hcontainers : Fact.containers facts = [(.text "secret", ⟨.text "/dev/sda", some (.text "/root/key")⟩)] :=
    lastOf_singleton _
  have hentries : Fact.fstabEntries facts = [["/dev/mapper/secret", "/", "ext4", "noatime,discard", "0", "1"],
      ["/dev/sdb", "none", "swap", "defaults", "0", "0"]] := by
    rw [Fact.fstabEntries, hfileSystems, ByPath.sorted, List.mergeSort_singleton]
    decide +kernel
  have hnamed : Fact.Named facts := fun name device keyFile h => by
    obtain ⟨rfl, -⟩ : name = .text "secret" ∧ _ := by simpa [facts] using h
    rfl
  have hhasFstab : Fact.HasFstab facts :=
    ⟨by simp [hfileSystems], by simp [hfileSystems, Value.isWritable], by simp [facts, Fact.swapDevice?, Value.isWritable]⟩
  have hhasCrypttab : Fact.HasCrypttab facts := by simp [Fact.HasCrypttab, hcontainers, Value.isWritable]
  rw [hentries] at hfstab
  rw [Fact.crypttabEntries, hcontainers] at hcrypttab
  exact ⟨l, hl, hfacts, hfstab.2 ⟨hnamed, hhasFstab, by decide +kernel⟩,
    hcrypttab.2 ⟨hnamed, hhasCrypttab, by decide +kernel⟩⟩

/-- A mountpoint with a space, which its line holds as two fields. -/
theorem tables_not_read_back_of_space :
    let tree : Value := .map [entry "disk" (.map [entry "main" (node "disk" [entry "device" (.text "/dev/sda"),
      entry "content" (node "filesystem" [entry "format" (.text "ext4"), entry "mountpoint" (.text "/srv/my data")])])])]
    let facts : List Fact := [.filesystem (.text "/srv/my data") (.text "/dev/sda") (.text "ext4") [.text "defaults"]]
    ∃ l c text, (Layout.read tree).outcome = .ok l ∧ l.facts = .ok facts ∧ HostConfig.ofFacts facts = .ok c ∧
      c.fstab.outcome = .ok text ∧ Fact.fstabEntries facts = [["/dev/sda", "/srv/my data", "ext4", "defaults", "0", "2"]] ∧
      Table.entries text = [["/dev/sda", "/srv/my", "data", "ext4", "defaults", "0", "2"]] := by
  intro tree facts
  have hchecked : (Layout.read tree).outcome.toOption.bind (fun l => l.facts.toOption) = some facts := by decide +kernel
  obtain ⟨l, hl, hfacts⟩ := Option.bind_eq_some_iff.1 hchecked
  replace hl := eq_ok_of_toOption hl
  replace hfacts := eq_ok_of_toOption hfacts
  have hwell := Layout.wellFormed_of_read hl
  obtain ⟨c, hc⟩ : ∃ c, HostConfig.ofFacts facts = .ok c := ⟨_, rfl⟩
  have hfileSystems : Fact.fileSystems facts = [("/srv/my data", ⟨.text "/dev/sda", .text "ext4", [.text "defaults"]⟩)] :=
    lastOf_singleton _
  have hsorted : (Fact.fileSystems facts).sorted = Fact.fileSystems facts := by
    rw [hfileSystems, ByPath.sorted, List.mergeSort_singleton]
  have hhas : Fact.HasFstab facts :=
    ⟨by simp [hfileSystems], by simp [hfileSystems, Value.isWritable], by simp [facts, Fact.swapDevice?]⟩
  refine ⟨l, c, _, hl, hfacts, hc, (Layout.fstab_eq_ok_iff hwell hfacts hc).2 ⟨hhas, rfl⟩, ?_, ?_⟩
  · rw [Fact.fstabEntries, hsorted, hfileSystems]
    decide +kernel
  · rw [Fact.writtenEntries, hsorted, hfileSystems]
    decide +kernel

end Provision
