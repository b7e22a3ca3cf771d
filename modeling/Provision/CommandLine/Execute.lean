import Provision.CommandLine.Arguments
import Provision.Compile
import Provision.Host.Table
import Provision.Json.Reader
import Provision.Json.Writer
import Provision.Run.Prerequisite
import Provision.Run.Script
import Provision.Yaml.Content
/-!
# A run of the command line

A run loads a layout, compiles it, writes or prints what was made, and applies it if it is asked to.  A simulation logs
what would be written and run, and changes nothing.  `CommandLine.run` gives the exit code and the session at the end.
-/
namespace Provision

namespace CommandLine

open Files (Path)

/-! ## Loading -/

/-- Line feeds for all line ends. -/
def withLineFeeds : List Char → List Char
  | [] => []
  | '\r' :: '\n' :: rest => '\n' :: withLineFeeds rest
  | c :: rest => (if c = '\r' then '\n' else c) :: withLineFeeds rest

def textOf (bytes : ByteArray) : Except Fault String :=
  match String.fromUTF8? bytes with
  | some s => .ok (String.ofList (withLineFeeds s.toList))
  | none => .error .undecodable

/-- The value of a document.  It departs from what a loader gives in two cases: a surrogate on its own, written as an escape,
is the replacement character (`Text.charOf`), so two such keys are one; and a YAML document that holds itself is a fault
(`Yaml.closed`). -/
def parseText (text : String) (isJson : Bool) : Except Fault Value := if isJson then Json.parse text else Yaml.parse text

/-- The layout at a path, or on standard input where the path is a dash.  Only a file whose name ends so is JSON. -/
def load (source input : String) : Act Value := do
  if source = "-" then
    Act.debug "Reading layout from standard input"
    parseText input false
  else
    let path := Path.ofString source
    let found := (← get).files.find path
    match found, found.refusal? with
    | .file _ file, _ =>
      let text ← textOf file.bytes
      Act.debug ("Loaded layout file " ++ path.text)
      parseText text (path.extension == ".json")
    | _, some reason => Act.fail (.unreadable path.text (reason ++ ": " ++ textLiteral path.text))
    | _, none => Act.fail (.misuse .nullCharacter)

/-! ## Artifacts -/

def configText (c : Compiled) : Except Fault String := do
  let host ← HostConfig.ofFacts c.facts
  return (← Json.render host.toValue) ++ "\n"

def toolsText (c : Compiled) : String := String.join (c.tools.map (· ++ "\n"))

def artifact (c : Compiled) : Mode → Except Fault String
  | .create => .ok c.createScript
  | .mount => .ok c.mountScript
  | .config => configText c
  | .tools => .ok (toolsText c)
  | .all => .ok (c.createScript ++ "\n" ++ c.mountScript)

def outputs (c : Compiled) (a : Arguments) : Logged (List (String × String)) := do
  let host ← HostConfig.ofFacts c.facts
  let config ← configText c
  let fstab ← if a.generateFstab then do pure [("fstab", ← host.fstab)] else pure []
  let crypttab ← if a.generateCrypttab then do pure [("crypttab", ← host.crypttab)] else pure []
  return [("create.sh", c.createScript), ("mount.sh", c.mountScript), ("host-config.json", config),
    ("tools.txt", toolsText c)] ++ fstab ++ crypttab

/-! ## Files -/

/-- Makes sure that a directory is there; `label` says what it holds. -/
def createDirectory (simulating : Bool) (label : String) (path : Path) : Act Unit := do
  if simulating then Act.info ("Would create " ++ label ++ " " ++ path.text)
  else
    Act.change (·.makeDirectories path)
    Act.debug ("Ensured " ++ label ++ " " ++ path.text)

def isScript (name : String) : Bool := name.endsWith ".sh"

def writeOutput (simulating : Bool) (directory : Path) (name content : String) : Act Unit := do
  let path := directory.child name
  if simulating then Act.info ("Would write " ++ path.text)
  else
    Act.change (·.write path content)
    if isScript name then Act.change (fun t => some (t.makeExecutable path))
    Act.info ("Wrote " ++ path.text)

def writeOutputs (c : Compiled) (a : Arguments) (directory : Path) : Act Unit := do
  createDirectory a.simulate "output directory" directory
  let files ← Act.ofLogged (outputs c a)
  files.forM (fun (name, content) => writeOutput a.simulate directory name content)

def writeTable (simulating : Bool) (path : Path) (content : String) : Act Unit := do
  createDirectory simulating "directory" path.parent
  if simulating then
    Act.info ("Would write " ++ path.text ++ ":")
    (Text.lines content.toList).forM (fun l => Act.info ("  " ++ String.ofList (Text.lineBody l)))
  else
    Act.change (·.write path content)
    Act.info ("Wrote " ++ path.text)

/-! ## Applying -/

def runnerOf (a : Arguments) : Runner := ⟨a.simulate, !a.plain⟩

def writeTables (c : Compiled) (a : Arguments) : Act Unit := do
  let host ← HostConfig.ofFacts c.facts
  let target := (Path.ofString a.root).child "etc"
  if a.generateFstab then
    let table ← Act.ofLogged host.fstab
    writeTable a.simulate (target.child "fstab") table
  if a.generateCrypttab && !host.containers.isEmpty then
    let table ← host.crypttab
    writeTable a.simulate (target.child "crypttab") table

def applyLayout (env : Environment) (c : Compiled) (a : Arguments) : Act Unit := do
  Act.ofLogged (Prerequisite.check env a.simulate c.tools)
  (runnerOf a).run "create" c.createScript
  (runnerOf a).run "mount" c.mountScript
  writeTables c a

def summaryWidth : Nat := 80

def summary (r : Runner) (scripts : List ScriptRecord) : String :=
  let stars := Colour.simulation.paint (String.ofList (List.replicate summaryWidth '*')) r.coloured
  "\n".intercalate [
    "", stars,
    Colour.wrap (Colour.simulation.code ++ Colour.bold.code) "SIMULATION COMPLETE - NO CHANGES WERE MADE" r.coloured,
    stars, "",
    Colour.success.paint "The following operations would have been performed:" r.coloured,
    r.report scripts, "",
    Colour.simulation.paint "To execute these operations for real, run without the --simulate flag." r.coloured, ""]

/-! ## The run -/

def execute (env : Environment) (a : Arguments) (input : String) : Act Unit := do
  if a.simulate then Act.info "Running in simulation mode - NO CHANGES WILL BE MADE"
  let tree ← load a.layout input
  let c ← Act.ofLogged (compile tree a.root)
  match a.outputDirectory.filter (· != "") with
  | some directory => writeOutputs c a (Path.ofString directory)
  | none => if !a.apply then Act.print (← artifact c a.mode)
  if a.apply then
    applyLayout env c a
    if a.simulate then Act.print (summary (runnerOf a) (← get).scripts)
    else
      Act.info (Colour.success.paint "Storage layout applied successfully" (!a.plain))
      Act.info ("The system is mounted at " ++ a.root)

def closing (f : Fault) : String :=
  if f.isExpected then f.message
  else match f with
    | .interrupted => f.message
    | _ => "Unexpected error: " ++ f.message

def exitCode : Fault → Nat
  | .interrupted => 130
  | _ => 1

def stopCode : Arguments.Stop → Nat
  | .usage => 2
  | .help => 0

def runWith (env : Environment) (a : Arguments) (input : String) (s : Session) : Nat × Session :=
  let (outcome, s) := execute env a input s
  let (code, log) := match outcome with
    | .ok _ => (0, s.log)
    | .error f => (exitCode f, s.log ++ [⟨.error, closing f⟩])
  (code, { s with log := if a.debug then log else Message.atLeast .info log })

def run (env : Environment) (argv : List String) (input : String) (s : Session) : Nat × Session :=
  match Arguments.parse argv with
  | .error stop => (stopCode stop, s)
  | .ok a => runWith env a input s

end CommandLine

end Provision
