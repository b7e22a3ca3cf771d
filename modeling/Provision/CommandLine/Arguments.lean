import Provision.Text.Digit
/-!
# Arguments of the command line

One layout and any number of options.  A long option may be shortened as long as one option is left that begins so, and
takes its value after an equals sign or as the next argument.  Short options may be joined, the value of the last one
included.  After two dashes everything is a layout.  `Arguments.parse` reads arguments or says that they cannot be used.
-/
namespace Provision

inductive Mode where
  | create | mount | config | tools | all
  deriving DecidableEq, Repr, Inhabited

namespace Mode

def name : Mode → String
  | create => "create"
  | mount => "mount"
  | config => "config"
  | tools => "tools"
  | all => "all"

def modes : List Mode := [create, mount, config, tools, all]

def ofName? (s : String) : Option Mode := modes.find? (fun m => m.name == s)

end Mode

structure Arguments where
  layout : String := ""
  root : String := "/mnt"
  mode : Mode := .all
  outputDirectory : Option String := none
  generateFstab : Bool := false
  generateCrypttab : Bool := false
  apply : Bool := false
  simulate : Bool := false
  plain : Bool := false
  debug : Bool := false
  deriving DecidableEq, Repr

inductive Switch where
  | fstab | crypttab | apply | simulate | plain | debug
  deriving DecidableEq, Repr

inductive Setting where
  | root | mode | outputDirectory
  deriving DecidableEq, Repr

inductive Flag where
  | help
  | switch (s : Switch)
  | setting (s : Setting)
  deriving DecidableEq, Repr

namespace Flag

def names : List (String × Flag) := [
  ("-h", .help), ("--help", .help),
  ("-r", .setting .root), ("--root-mountpoint", .setting .root),
  ("-m", .setting .mode), ("--mode", .setting .mode),
  ("-o", .setting .outputDirectory), ("--output-dir", .setting .outputDirectory),
  ("-f", .switch .fstab), ("--generate-fstab", .switch .fstab),
  ("-c", .switch .crypttab), ("--generate-crypttab", .switch .crypttab),
  ("--apply", .switch .apply),
  ("-s", .switch .simulate), ("--simulate", .switch .simulate),
  ("--no-color", .switch .plain),
  ("--debug", .switch .debug)]

end Flag

namespace Arguments

inductive Stop where
  | usage
  | help
  deriving DecidableEq, Repr

inductive Token where
  /-- A layout or the value of an option. -/
  | plain (text : String)
  /-- A long option, or a short one on its own, and the value joined to it. -/
  | long (flag : Flag) (value : Option String)
  /-- A short option with what is joined to it; `equals` says that an equals sign stands between. -/
  | short (flag : Flag) (equals : Bool) (joined : List Char)
  | unknown
  /-- Two dashes. -/
  | marker
  deriving DecidableEq, Repr

/-- A dash before a number, which is no option. -/
def isNegativeNumber (s : String) : Bool :=
  let isDigits (cs : List Char) := !cs.isEmpty && cs.all (fun c => (Text.digit? c).isSome)
  match s.toList with
  | '-' :: rest =>
    isDigits rest ||
      (let whole := rest.takeWhile (· != '.')
       let places := (rest.dropWhile (· != '.')).drop 1
       (whole.isEmpty || isDigits whole) && isDigits places)
  | _ => false

/-- The part before the first equals sign, and the part after it if there is one. -/
def cutAtEquals (s : String) : String × Option String :=
  let cs := s.toList
  match cs.dropWhile (· != '=') with
  | [] => (s, none)
  | _ :: value => (String.ofList (cs.takeWhile (· != '=')), some (String.ofList value))

def tokenOfUnnamed (s : String) : Token :=
  if isNegativeNumber s || s.toList.contains ' ' then .plain s else .unknown

/-- What one argument before two dashes is; an option that is shortened too much cannot be used. -/
def tokenOf (s : String) : Except Stop Token :=
  match s.toList with
  | '-' :: second :: joined =>
    match Flag.names.lookup s with
    | some flag => .ok (.long flag none)
    | none =>
      let (name, value) := cutAtEquals s
      match value, Flag.names.lookup name with
      | some v, some flag =>
        if second = '-' then .ok (.long flag (some v)) else .ok (.short flag true v.toList)
      | _, _ =>
        if second = '-' then
          match Flag.names.filter (fun f => f.1.startsWith name) with
          | [] => .ok (tokenOfUnnamed s)
          | [(_, flag)] => .ok (.long flag value)
          | _ => .error .usage
        else
          match Flag.names.lookup (String.ofList ['-', second]) with
          | some flag => .ok (.short flag false joined)
          | none => .ok (tokenOfUnnamed s)
  | _ => .ok (.plain s)

def tokens : List String → Except Stop (List Token)
  | [] => .ok []
  | s :: rest =>
    if s = "--" then .ok (.marker :: rest.map .plain)
    else do
      let first ← tokenOf s
      let rest ← tokens rest
      return first :: rest

def turnOn (a : Arguments) : Switch → Arguments
  | .fstab => { a with generateFstab := true }
  | .crypttab => { a with generateCrypttab := true }
  | .apply => { a with apply := true }
  | .simulate => { a with simulate := true }
  | .plain => { a with plain := true }
  | .debug => { a with debug := true }

def assign (a : Arguments) (s : Setting) (value : String) : Except Stop Arguments :=
  match s with
  | .root => .ok { a with root := value }
  | .outputDirectory => .ok { a with outputDirectory := some value }
  | .mode =>
    match Mode.ofName? value with
    | some m => .ok { a with mode := m }
    | none => .error .usage

/-- What was read so far: the arguments, whether a layout is among them, and whether something was left over. -/
structure Progress where
  arguments : Arguments
  layout : Option String := none
  leftOver : Bool := false

/-- An option still waiting for its value, or none. -/
abbrev Waiting := Option Setting

/-- The options joined in one argument, in order, and the last one's value if it has one.  A switch takes no value; an
option that is not there is left over. -/
def joinedFlags (flag : Flag) (equals : Bool) : List Char → Except Stop (List Flag × Option String × Bool)
  | [] =>
    if equals then
      match flag with
      | .setting _ => .ok ([flag], some "", false)
      | _ => .error .usage
    else .ok ([flag], none, false)
  | c :: rest =>
    match flag with
    | .setting _ => .ok ([flag], some (String.ofList (c :: rest)), false)
    | _ =>
      if equals || c = '-' then .error .usage
      else
        match Flag.names.lookup (String.ofList ['-', c]) with
        | none => .ok ([flag], none, true)
        | some next => do
          let (flags, value, leftOver) ← match rest with
            | '=' :: more => joinedFlags next true more
            | more => joinedFlags next false more
          return (flag :: flags, value, leftOver)

/-- Takes options in order; the last one may be left waiting for its value. -/
def takeFlags (p : Progress) (value : Option String) : List Flag → Except Stop (Progress × Waiting)
  | [] => .ok (p, none)
  | .help :: _ => .error .help
  | .switch s :: rest => takeFlags { p with arguments := turnOn p.arguments s } value rest
  | .setting s :: rest =>
    match value with
    | some v => do
      let a ← assign p.arguments s v
      takeFlags { p with arguments := a } none rest
    | none => .ok (p, some s)

def readTokens (p : Progress) : List Token → Except Stop Progress
  | [] => .ok p
  | .plain s :: rest =>
    match p.layout with
    | some _ => readTokens { p with leftOver := true } rest
    | none =>
      let p := { p with layout := some s }
      match rest with
      | .marker :: more => readTokens p more
      | more => readTokens p more
  | .marker :: rest =>
    match p.layout, rest with
    | none, .plain s :: more => readTokens { p with layout := some s } more
    | _, more => readTokens { p with leftOver := true } more
  | .unknown :: rest => readTokens { p with leftOver := true } rest
  | .long flag value :: rest =>
    match flag, value with
    | .help, none => .error .help
    | .switch s, none => readTokens { p with arguments := turnOn p.arguments s } rest
    | .setting s, some v => do
      let a ← assign p.arguments s v
      readTokens { p with arguments := a } rest
    | .setting s, none =>
      match rest with
      | .plain v :: more => do
        let a ← assign p.arguments s v
        readTokens { p with arguments := a } more
      | _ => .error .usage
    | _, some _ => .error .usage
  | .short flag equals joined :: rest => do
    let (flags, value, leftOver) ← joinedFlags flag equals joined
    -- a last option without its value takes the next argument, which has to be there before any option is taken
    match value, flags.getLast?, rest with
    | none, some (.setting s), .plain v :: more => do
      let (p, _) ← takeFlags { p with leftOver := p.leftOver || leftOver } none flags
      let a ← assign p.arguments s v
      readTokens { p with arguments := a } more
    | none, some (.setting _), _ => .error .usage
    | value, _, rest => do
      let (p, _) ← takeFlags { p with leftOver := p.leftOver || leftOver } value flags
      readTokens p rest

def parse (argv : List String) : Except Stop Arguments := do
  let ts ← tokens argv
  let p ← readTokens { arguments := {} } ts
  match p.layout with
  | none => .error .usage
  | some layout => if p.leftOver then .error .usage else .ok { p.arguments with layout := layout }

end Arguments

end Provision
