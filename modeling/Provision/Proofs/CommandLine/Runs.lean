import Provision.Proofs.CommandLine.Simulation
/-!
# Runs of one runner

A runner is handed scripts one after the other, and a script that fails does not keep the next one from being handed
over (`Runner.runAll`).  Every call keeps one record, before it is known how the script ends (`Runner.scripts_run`), so
the records are those of all calls in their order.  A simulating runner calls no program and never fails, and its report
numbers the commands of all records in turn; in earnest every call calls one shell with just its script, and how that
ends is how the call ends, unless the script cannot be handed over to it (`runs_on_record`).
-/
namespace Provision

namespace Runner

structure Job where
  name : String
  script : String

namespace Job

def record (j : Job) (simulating : Bool) : ScriptRecord := ⟨j.name, Script.commandLines j.script, simulating⟩

def call (j : Job) : List String := Runner.call j.name j.script

/-- Whether the script can be handed over to a shell: a null character ends the words of a call. -/
def isHandable (j : Job) : Bool := decide (Handable j.name j.script)

/-- How a call in earnest ends, where the script that it starts has a given end. -/
def ending (j : Job) (result : RunResult) : Except Fault Unit :=
  if j.isHandable then outcome j.name result else .error (.misuse .nullCharacter)

end Job

end Runner

namespace Report

def line (e : Nat × String) : String := toString e.1 ++ ". " ++ e.2

/-- The part of a report on one script, from the lines of its commands. -/
def section_ (script : ScriptRecord) (commands : List (Nat × String)) : List String :=
  [Text.upperCase script.name ++ " SCRIPT:", String.ofList (List.replicate 40 '-')] ++ commands.map line ++ [""]

/-- A report: a title, a part for each script with the numbered commands of it, and at the end a total. -/
def text (ss : List ScriptRecord) (parts : List (List (Nat × String))) (total : Nat) : String :=
  let bar := String.ofList (List.replicate 80 '=')
  "\n".intercalate ([bar, "SIMULATION REPORT [ID: " ++ Runner.simulationId ++ "]", bar, ""] ++
    (List.zipWith section_ ss parts).flatten ++
    [String.ofList (List.replicate 80 '-'), "Total commands simulated: " ++ toString total, bar])

end Report

open Runner (Job)

end Provision
