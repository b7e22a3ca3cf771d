import Provision.Device.Ref
import Provision.Layout.Kind
import Provision.Shell.Words
import Provision.Value.Text
/-!
# Faults

Everything that can end a computation, by cause.  `Flaw` is what is wrong with one node or option of a layout, `Misuse`
an operation that a value does not have, `Misread` why a scalar denotes no value of its type.  `Fault.message` is the one
place for the wording.  A fault whose wording would quote a value that cannot be written is a misuse itself, whatever it is
about (`Fault.kind`).
-/
namespace Provision

/-- What is wrong at one place of a layout. -/
inductive Flaw where
  | notList (found : Value)
  | notMapping (found : Value)
  | notAbsolute (found : Value)
  | notContent (found : Value)
  | missing (option : String)
  | unknownKind (found : Value)
  | notPlaceable (kind : Kind) (slot : Slot)
  | notChildren (kind : Kind) (found : Value)
  | notPartitions (found : Value)
  | notNode (kind : String) (found : Value)
  | otherKind (kind : String) (found : Value)
  | badIndex (found : Value)
  | takenIndex (index : Nat) (place : String)
  | badDatasetType (found : Value)
  | missingVolumeSize
  | badTableFormat (found : Value)
  | notDevices (found : Value)

namespace Flaw

def message : Flaw → String
  | notList v => "expected a list, got " ++ v.literal
  | notMapping v => "expected a mapping, got " ++ v.literal
  | notAbsolute v => "mountpoint must be an absolute path, got " ++ v.literal
  | notContent v => "expected a node, got " ++ v.literal
  | missing option => "missing required field '" ++ option ++ "'"
  | unknownKind v => "unknown node type " ++ v.literal
  | notPlaceable kind slot =>
    "a " ++ kind.name ++ " node cannot be placed here (allowed: " ++ ", ".intercalate slot.names ++ ")"
  | notChildren kind v => "expected a mapping of " ++ kind.name ++ " nodes, got " ++ v.literal
  | notPartitions v => "expected a list of partitions, got " ++ v.literal
  | notNode kind v => "expected a " ++ kind ++ " node, got " ++ v.literal
  | otherKind kind v => "expected a " ++ kind ++ " node, got type " ++ v.literal
  | badIndex v => "partition index must be a positive integer, got " ++ v.literal
  | takenIndex index place => "partition index " ++ toString index ++ " is already used by " ++ place
  | badDatasetType v => "zfs_type must be 'filesystem' or 'volume', got " ++ v.literal
  | missingVolumeSize => "missing required field 'size' for a ZFS volume"
  | badTableFormat v => "partition table format must be 'gpt' or 'msdos', got " ++ v.literal
  | notDevices v => "expected a mapping of named devices, got " ++ v.literal

def quoted : Flaw → List Value
  | notList v | notMapping v | notAbsolute v | notContent v | unknownKind v | notChildren _ v | notPartitions v
  | notNode _ v | otherKind _ v | badIndex v | badDatasetType v | badTableFormat v | notDevices v => [v]
  | takenIndex index _ => [.int index]
  | missing _ | notPlaceable _ _ | missingVolumeSize => []

end Flaw

/-- Why a scalar denotes no value of its type. -/
inductive Misread where
  | notInteger (base : Nat) (text : String)
  | tooManyDigits (digits : Nat)
  | notNumber (text : String)
  | noCharacter
  | notInCalendar (cause : CalendarFault)
  deriving DecidableEq, Repr

def CalendarFault.message : CalendarFault → String
  | year found => "year " ++ toString found ++ " is out of range"
  | month => "month must be in 1..12"
  | day => "day is out of range for month"
  | hour => "hour must be in 0..23"
  | minute => "minute must be in 0..59"
  | second => "second must be in 0..59"
  | offset seconds =>
    "offset must be a timedelta strictly between -timedelta(hours=24) and timedelta(hours=24), not " ++
      Timestamp.spanLiteral seconds ++ "."

namespace Misread

/-- The limit on digits, and what was found if that is known. -/
def limitMessage (found : String) : String :=
  "Exceeds the limit (" ++ toString Text.maxDigits ++ " digits) for integer string conversion" ++ found ++
    "; use sys.set_int_max_str_digits() to increase the limit"

/-- A text that is no integer is quoted up to a length. -/
def message : Misread → String
  | notInteger base text =>
    "invalid literal for int() with base " ++ toString base ++ ": " ++ String.ofList ((textLiteral text).toList.take 200)
  | tooManyDigits digits => limitMessage (": value has " ++ toString digits ++ " digits")
  | notNumber text => "could not convert string to float: " ++ textLiteral text
  | noCharacter => "chr() arg not in range(0x110000)"
  | notInCalendar cause => cause.message

end Misread

/-- Operations that a value does not have. -/
inductive Misuse where
  /-- A list or a mapping used as a key. -/
  | unhashable
  /-- An operand of a type that the operation does not take. -/
  | wrongOperand
  /-- A text operation on a value that has none. -/
  | noTextOperation
  /-- A field that is not there. -/
  | noField
  /-- A scalar that does not denote a value of its type. -/
  | misread (cause : Misread)
  /-- A scalar without the characters that its type needs. -/
  | emptyScalar
  /-- A number beyond the range of its use. -/
  | outOfRange
  /-- A value that holds itself. -/
  | endless
  /-- An integer of too many digits that is to be written. -/
  | unwritable
  /-- A null character in a word that is handed to the system. -/
  | nullCharacter
  deriving DecidableEq, Repr

/-- The wording of a misuse, where it depends on values and not on types. -/
def Misuse.message : Misuse → String
  | misread cause => cause.message
  | unwritable => Misread.limitMessage ""
  | nullCharacter => "embedded null byte"
  | _ => ""

/-- Why a computation ended. -/
inductive Fault where
  | layout (path : String) (flaw : Flaw)
  | notLayout (found : Value)
  | unknownGroups (names : List String)
  | unknownNodeType (found : Value)
  | unparsable
  | unreadable (path reason : String)
  | cycle (devices : List DeviceRef)
  | unsupportedNaming (device : String)
  | badQuoting (cause : Shell.QuotingFault)
  | unknownFact (found : Value)
  | alreadyRegistered (kind : Value)
  | scriptFailed (script : String) (code : Int)
  | scriptNotStarted (script reason : String)
  | notRoot
  | missingTools (binaries : List String)
  | interrupted
  | undecodable
  | system (reason : String)
  | misuse (cause : Misuse)

inductive Fault.Class where
  | layout | cycle | naming | execution | prerequisite
  | value | interrupt | decoding | system | misuse (cause : Misuse)
  deriving DecidableEq, Repr

namespace Fault

def quoted : Fault → List Value
  | layout _ flaw => flaw.quoted
  | unknownNodeType v | unknownFact v | alreadyRegistered v => [v]
  | _ => []

def subject : Fault → Class
  | layout _ _ | notLayout _ | unknownGroups _ | unknownNodeType _ | unparsable | unreadable _ _ => .layout
  | cycle _ => .cycle
  | unsupportedNaming _ => .naming
  | scriptFailed _ _ | scriptNotStarted _ _ => .execution
  | notRoot | missingTools _ => .prerequisite
  | badQuoting _ | unknownFact _ | alreadyRegistered _ => .value
  | interrupted => .interrupt
  | undecodable => .decoding
  | system _ => .system
  | misuse m => .misuse m

/-- What kind of fault is reported: what the fault is about, if it can be worded. -/
def kind (f : Fault) : Class := if Value.areWritable f.quoted then f.subject else .misuse .unwritable

@[simp] theorem kind_misuse (m : Misuse) : (misuse m).kind = .misuse m := rfl

def wording : Fault → String
  | layout path flaw => path ++ ": " ++ flaw.message
  | notLayout v => "Layout must be a mapping of device groups, got " ++ v.typeName
  | unknownGroups names =>
    "Unknown device group(s): " ++ ", ".intercalate names ++ " (expected " ++
      ", ".intercalate (Group.all.map Group.name) ++ ")"
  | unknownNodeType v => "Unknown node type: " ++ v.literal
  | unparsable => "Could not parse layout"
  | unreadable path reason => "Could not read layout file " ++ path ++ ": " ++ reason
  | cycle devices => "Detected a cycle in the disk setup: " ++ " -> ".intercalate (devices.map DeviceRef.text)
  | unsupportedNaming device => device ++ " seems not to be a supported disk format"
  | badQuoting cause => cause.message
  | unknownFact v => "Unknown configuration fact: " ++ v.toText
  | alreadyRegistered kind => "Node kind " ++ kind.toText ++ " is already registered"
  | scriptFailed script code => "The " ++ script ++ " script failed with exit code " ++ toString code
  | scriptNotStarted script reason => "Could not start the " ++ script ++ " script: " ++ reason
  | notRoot => "Applying a layout must be done as root"
  | missingTools binaries =>
    "Missing required tools: " ++ ", ".intercalate binaries ++
      "\nPlease install the necessary packages for your distribution and try again"
  | interrupted => "Operation cancelled by user"
  | undecodable => ""
  | system reason => reason
  | misuse m => m.message

def message (f : Fault) : String := if Value.areWritable f.quoted then f.wording else Misuse.unwritable.message

/-- Whether a fault is one that a run reports in its own words; all others are unexpected. -/
def isExpected (f : Fault) : Bool :=
  match f.kind with
  | .layout | .cycle | .naming | .execution | .prerequisite => true
  | _ => false

end Fault

namespace Value

/-- Values that are about to be written need texts. -/
def requireWritable (vs : List Value) : Except Fault Unit :=
  if areWritable vs then .ok () else .error (.misuse .unwritable)

theorem requireWritable_eq_ok_iff {vs : List Value} : requireWritable vs = .ok () ↔ ∀ v ∈ vs, v.isWritable = true := by
  rw [← areWritable_iff, requireWritable]
  split <;> simp_all

theorem requireWritable_eq_error_iff {vs : List Value} {f : Fault} :
    requireWritable vs = .error f ↔ areWritable vs = false ∧ f = .misuse .unwritable := by
  rw [requireWritable, eq_comm (a := f)]
  split <;> simp_all

theorem requireWritable_congr {vs ws : List Value} (h : requireWritable vs = .ok () ↔ requireWritable ws = .ok ()) :
    requireWritable vs = requireWritable ws := by
  unfold requireWritable at h ⊢
  split <;> split <;> simp_all

end Value

namespace Kind

def find (name : Value) : Except Fault Kind :=
  match name with
  | .text s =>
    match ofName? s with
    | some k => .ok k
    | none => .error (.unknownNodeType name)
  | v => if v.isKey then .error (.unknownNodeType v) else .error (.misuse .unhashable)

def checkFree (name : Value) : Except Fault Unit :=
  match find name with
  | .ok _ => .error (.alreadyRegistered name)
  | .error (.unknownNodeType _) => .ok ()
  | .error e => .error e

end Kind

end Provision
