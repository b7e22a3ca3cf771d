import Provision.Layout.Read
import Provision.Proofs.Faults.Kinds
/-!
# The options of a node, in order

Options that a node requires and options with a structure of their own are checked when the node is read; all others are
taken as they are.  `Spec.readings` lists these checks for each kind, and reading what a node declares fails as the
first of them that does (`Spec.read_eq_error_iff`).
-/
namespace Provision

open Fault (IsFlaw IsInput)

/-- How an option is checked. -/
inductive Reading where
  | required (default : Option Value)
  | list (default : List String)
  | arguments
  | properties
  | mountpoint
  | requiredMountpoint (default : Option String)

namespace Value

@[grind .] theorem failsIn_requireWritable (vs : List Value) : FailsIn IsInput (requireWritable vs) := by
  intro f hf
  obtain ⟨-, rfl⟩ := requireWritable_eq_error_iff.1 hf
  trivial

def refusal (v : Value) : Fault.Class := if v.isWritable then .layout else .misuse .unwritable

theorem refusal_eq_layout_iff {v : Value} : v.refusal = .layout ↔ v.isWritable = true := by
  unfold refusal
  split <;> simp_all

theorem refusal_of_not_writable {v : Value} (h : v.isWritable = false) : v.refusal = .misuse .unwritable := by
  simp [refusal, h]

theorem kind_of_quoted {path : String} {flaw : Flaw} {v : Value} (h : flaw.quoted = [v]) :
    (Fault.layout path flaw).kind = v.refusal := by
  simp [Fault.kind, Fault.quoted, Fault.subject, refusal, h]

end Value

namespace Declared

def check (d : Declared) (option : String) : Reading → Except Fault Unit
  | .required default => (fun _ => ()) <$> d.require option default
  | .list default => (fun _ => ()) <$> d.list option default
  | .arguments => (fun _ => ()) <$> d.arguments option
  | .properties => (fun _ => ()) <$> d.properties option
  | .mountpoint => (fun _ => ()) <$> d.mountpoint? option
  | .requiredMountpoint default => (fun _ => ()) <$> d.mountpoint option (default.map Value.text)

/-- Arguments that are a text which cannot be split into words. -/
def Misquoted (d : Declared) (option : String) (cause : Shell.QuotingFault) : Prop :=
  ∃ s, d.get? option = some (.text s) ∧ Shell.split s = .error cause

theorem failsIn_listOf (place : String) (v : Value) : FailsIn (fun f => f.kind = v.refusal) (listOf place v) := by
  fun_cases listOf place v with
  | case1 xs =>
    refine .bind (fun f hf => ?_) fun _ => .ok _
    obtain ⟨hw, rfl⟩ := Value.requireWritable_eq_error_iff.1 hf
    exact (Value.refusal_of_not_writable (v := .list xs) hw).symm
  | case2 k v =>
    refine .bind (fun f hf => ?_) fun _ => .ok _
    obtain ⟨hw, rfl⟩ := Value.requireWritable_eq_error_iff.1 hf
    exact (Value.refusal_of_not_writable (by simpa [Value.isWritable] using hw)).symm
  | case3 v => exact FailsIn.error_iff.2 (Value.kind_of_quoted rfl)

theorem failsIn_propertiesOf (place : String) (v : Value) :
    FailsIn (fun f => f.kind = v.refusal) (propertiesOf place v) := by
  fun_cases propertiesOf place v with
  | case1 es =>
    refine .bind (fun f hf => ?_) fun _ => .ok _
    obtain ⟨hw, rfl⟩ := Value.requireWritable_eq_error_iff.1 hf
    exact (Value.refusal_of_not_writable (by simpa using hw)).symm
  | case2 v => exact FailsIn.error_iff.2 (Value.kind_of_quoted rfl)

theorem failsIn_mountpointOf (place : String) (v : Value) :
    FailsIn (fun f => f.kind = v.refusal) (mountpointOf place v) := by
  fun_cases mountpointOf place v with
  | case1 s => exact .ok s
  | case2 s | case3 v => exact FailsIn.error_iff.2 (Value.kind_of_quoted rfl)

/-- **What can be wrong with one option**: it is arguments that cannot be split, or it is refused, in words only where it can
be written. -/
theorem failsIn_check (d : Declared) (option : String) (reading : Reading) :
    FailsIn (fun f => (reading = .arguments ∧ ∃ cause, d.Misquoted option cause ∧ f = .badQuoting cause) ∨
      f.kind = (d.getD option .null).refusal) (d.check option reading) := by
  cases reading with
  | required default =>
    rw [check, FailsIn.map_iff]
    fun_cases require d option default with
    | case1 v _ | case2 v _ => exact .ok _
    | case3 h =>
      rw [getD, h]
      exact FailsIn.error_iff.2 (.inr rfl)
  | list default =>
    rw [check, FailsIn.map_iff, list, getD]
    cases d.get? option with
    | none => exact .ok _
    | some v => exact (failsIn_listOf _ v).mono fun _ => .inr
  | arguments =>
    rw [check, FailsIn.map_iff, arguments, getD]
    cases hv : d.get? option with
    | none => exact .ok _
    | some v =>
      change FailsIn _ (argumentsOf _ v)
      fun_cases argumentsOf (d.place option) v with
      | case1 s => exact FailsIn.mapError_iff.2 fun cause hcause => .inl ⟨rfl, cause, ⟨s, hv, hcause⟩, rfl⟩
      | case2 v => exact (failsIn_listOf _ v).mono fun _ => .inr
  | properties =>
    rw [check, FailsIn.map_iff, properties, getD]
    cases d.get? option with
    | none => exact .ok _
    | some v => exact (failsIn_propertiesOf _ v).mono fun _ => .inr
  | mountpoint =>
    rw [check, FailsIn.map_iff, mountpoint?, getD]
    cases d.get? option with
    | none => exact .ok _
    | some v => exact FailsIn.map_iff.2 ((failsIn_mountpointOf _ v).mono fun _ => .inr)
  | requiredMountpoint default =>
    rw [check, FailsIn.map_iff, mountpoint, getD]
    unfold require
    cases d.get? option with
    | none =>
      cases default with
      | none => exact FailsIn.error_iff.2 (.inr rfl)
      | some s => exact FailsIn.mono (failsIn_mountpointOf _ (.text s)) fun _ => .inr
    | some v => exact FailsIn.mono (failsIn_mountpointOf _ v) fun _ => .inr

theorem check_of_misquoted {d : Declared} {option : String} {cause : Shell.QuotingFault} (h : d.Misquoted option cause) :
    d.check option .arguments = .error (.badQuoting cause) := by
  obtain ⟨s, hs, hcause⟩ := h
  simp [check, arguments, hs, argumentsOf, hcause, Except.mapError, Functor.map, Except.map]

end Declared

namespace Spec

def readings (p : Place) : List (String × Reading) :=
  match p.kind with
  | .disk => [("name", .required p.keyValue), ("device", .required none)]
  | .table | .swap => []
  | .partition => [("index", .required (p.position.map (fun n => .int (n + 1)))), ("flags", .list [])]
  | .filesystem =>
    [("format", .required none), ("mountpoint", .requiredMountpoint none), ("extraArgs", .arguments),
     ("mountOptions", .list defaultOptions)]
  | .btrfs => [("extraArgs", .arguments), ("mountOptions", .list defaultOptions), ("mountpoint", .mountpoint)]
  | .subvolume =>
    [("name", .required p.keyValue), ("extraArgs", .arguments), ("mountOptions", .list defaultOptions),
     ("mountpoint", .mountpoint)]
  | .physicalVolume => [("vg", .required none)]
  | .volumeGroup | .array => [("name", .required p.keyValue)]
  | .logicalVolume => [("name", .required p.keyValue), ("size", .required none), ("extraArgs", .arguments)]
  | .poolMember => [("pool", .required none)]
  | .pool =>
    [("name", .required p.keyValue), ("options", .properties), ("rootFsOptions", .properties), ("mountpoint", .mountpoint),
     ("mountOptions", .list defaultOptions)]
  | .dataset =>
    [("name", .required p.keyValue), ("zfs_type", .required none), ("options", .properties),
     ("mountOptions", .list defaultOptions), ("mountpoint", .mountpoint)]
  | .arrayMember => [("name", .required none)]
  | .luks => [("name", .required none), ("extraArgs", .arguments)]
  | .nodev => [("fsType", .required none), ("mountpoint", .requiredMountpoint p.name?),
      ("mountOptions", .list defaultOptions)]

theorem discard_read (p : Place) (d : Declared) :
    (fun _ => ()) <$> Spec.read p d = forM (readings p) fun r => d.check r.1 r.2 := by
  obtain ⟨path, kind, key, position⟩ := p
  cases kind <;> simp [Spec.read, readings, Declared.check, Place.keyValue]

def Reaches (p : Place) (d : Declared) (option : String) (reading : Reading) : Prop :=
  ∃ before after, readings p = before ++ (option, reading) :: after ∧ ∀ r ∈ before, d.check r.1 r.2 = .ok ()

/-- **The options of a node are refused as the first of them that is wrong.** -/
theorem read_eq_error_iff {p : Place} {d : Declared} {f : Fault} : Spec.read p d = .error f ↔
    ∃ option reading, Reaches p d option reading ∧ d.check option reading = .error f := by
  rw [← except_map_eq_error_iff (k := fun _ => ()), discard_read, except_forM_eq_error_iff]
  constructor
  · rintro ⟨before, ⟨option, reading⟩, after, hsplit, hbefore, hf⟩
    exact ⟨option, reading, ⟨before, after, hsplit, hbefore⟩, hf⟩
  · rintro ⟨option, reading, ⟨before, after, hsplit, hbefore⟩, hf⟩
    exact ⟨before, (option, reading), after, hsplit, hbefore, hf⟩

end Spec

end Provision
