import Provision.CommandLine.Execute
/-!
# The program

Reads what a run needs, runs it as a session, and then carries out what the session did: the files are written, the output
is printed, and the log goes to standard error.  No script is started from here; applying a layout ends where the first
script would start, and the scripts can be written to a directory and started by hand.
-/
namespace Provision

namespace Program

open Files (Path Tree)

/-- The first line of the help. -/
def usage : String :=
  "usage: provision [-r ROOT] [-m MODE] [-o DIRECTORY] [-f] [-c] [--apply] [-s] [--no-color] [--debug] LAYOUT"

def noScripts : String := "scripts are not started from here"

/-- The files as far as a layout is read from them. -/
def filesBefore (layout : String) : IO Tree := do
  if layout = "-" then return {}
  let path := Path.ofString layout
  try
    let bytes ← IO.FS.readBinFile path.text
    return { files := [(path, { bytes := bytes })] }
  catch _ => return {}

/-- The text on standard input, if the layout is there; bytes that are no text are refused. -/
def standardInput (layout : String) : IO (Except Fault String) := do
  if layout ≠ "-" then return .ok ""
  let bytes ← (← IO.getStdin).readBinToEnd
  return CommandLine.textOf bytes

def scriptRights : IO.FileRight :=
  let others : IO.AccessRight := { read := true, execution := true }
  { user := { others with write := true }, group := others, other := others }

def writeFiles (before after : Tree) : IO Unit := do
  for d in after.directories do
    IO.FS.createDirAll d.text
  for (path, file) in after.files do
    let old := before.file? path
    if (old.map (·.bytes.data)) != some file.bytes.data then
      IO.FS.writeBinFile path.text file.bytes
    if file.executable then
      IO.setAccessRights path.text scriptRights

def printLog (log : List Message) : IO Unit := do
  for m in log do
    IO.eprintln (m.level.name ++ ": " ++ m.text)

def perform (argv : List String) (layout : String) : IO Nat := do
  let before ← filesBefore layout
  match ← standardInput layout with
  | .error f =>
    printLog [⟨.error, CommandLine.closing f⟩]
    return CommandLine.exitCode f
  | .ok input =>
    let (code, after) := CommandLine.run {} argv input { files := before, results := [.failed noScripts] }
    writeFiles before after.files
    IO.print after.output
    printLog after.log
    return code

def exitCode (argv : List String) : IO Nat := do
  match Arguments.parse argv with
  | .ok a => perform argv a.layout
  | .error .help => do
    IO.println usage
    return CommandLine.stopCode .help
  | .error stop => do
    IO.eprintln usage
    return CommandLine.stopCode stop

end Program

end Provision

def main (argv : List String) : IO UInt32 := do
  let code ← Provision.Program.exitCode argv
  return code.toUInt32
