import Provision.Run.Colour
import Provision.Run.Session
import Provision.Text.Blank
import Provision.Text.Capital
/-!
# Running scripts

A script is handed to a shell, or, in a simulation, only its command lines are logged.  Every script handed over is kept
on record, so that a simulation can end with a report that numbers the commands of all scripts in turn.
-/
namespace Provision

namespace Script

/-- The command lines of a script: its lines without blanks around them, blank lines and comments left out. -/
def commandLines (script : String) : List String :=
  (((Text.lines script.toList).map (fun l => Text.trim (Text.lineBody l))).filter
    (fun l => l != [] && l.head? != some '#')).map String.ofList

end Script

structure Runner where
  simulating : Bool
  coloured : Bool

namespace Runner

def simulationId : String := "00000000"

def simulationMark (r : Runner) : String := Colour.simulation.paint ("[SIM:" ++ simulationId ++ "]") r.coloured

def logCommands (r : Runner) (name : String) (commands : List String) : Logged Unit := do
  logInfo (r.simulationMark ++ " Would run the " ++ name ++ " script (" ++ toString commands.length ++ " lines):")
  commands.forM (fun line => logInfo (r.simulationMark ++ "   " ++ line))

def finish (r : Runner) (name : String) : RunResult → Act Unit
  | .exited 0 => Act.info (Colour.success.paint ("The " ++ name ++ " script completed successfully") r.coloured)
  | .exited code => do
    Act.error (Colour.failure.paint ("The " ++ name ++ " script failed") r.coloured)
    Act.fail (.scriptFailed name code)
  | .interrupted => Act.fail .interrupted
  | .failed reason => Act.fail (.scriptNotStarted name reason)

def run (r : Runner) (name script : String) : Act Unit := do
  let commands := Script.commandLines script
  Act.remember ⟨name, commands, r.simulating⟩
  if r.simulating then Act.ofLogged (r.logCommands name commands)
  else
    Act.info (Colour.progress.paint ("Running the " ++ name ++ " script") r.coloured)
    Act.debug (name ++ " script:\n" ++ script)
    let result ← Act.start ["sh", "-c", script, "strata-" ++ name]
    r.finish name result

def numbered : Nat → List String → List String
  | _, [] => []
  | n, l :: ls => (toString n ++ ". " ++ l) :: numbered (n + 1) ls

def reportScripts : Nat → List ScriptRecord → List String
  | _, [] => []
  | n, s :: ss =>
    [Text.upperCase s.name ++ " SCRIPT:", String.ofList (List.replicate 40 '-')] ++ numbered (n + 1) s.commands ++ [""] ++
      reportScripts (n + s.commands.length) ss

def totalCommands (scripts : List ScriptRecord) : Nat := scripts.foldl (fun n s => n + s.commands.length) 0

def report (r : Runner) (scripts : List ScriptRecord) : String :=
  if !r.simulating then "Simulation mode is not active."
  else
    let bar := String.ofList (List.replicate 80 '=')
    "\n".intercalate ([bar, "SIMULATION REPORT [ID: " ++ simulationId ++ "]", bar, ""] ++ reportScripts 0 scripts ++
      [String.ofList (List.replicate 80 '-'), "Total commands simulated: " ++ toString (totalCommands scripts), bar])

end Runner

end Provision
