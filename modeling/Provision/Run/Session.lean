import Provision.Files.Tree
import Provision.Traced
/-!
# Sessions

What a run of the program does to the world: the files it changes, the scripts it starts, what it prints and logs.  An
`Act` is a step of a session that may end in a fault; what was done before the fault stays done.
-/
namespace Provision

/-- How a script that was started ends. -/
inductive RunResult where
  | exited (code : Int)
  | interrupted
  /-- It could not be started. -/
  | failed (reason : String)
  deriving DecidableEq, Repr

/-- The machine on which a session runs. -/
structure Environment where
  /-- Executables that are not found. -/
  missing : List String := []
  /-- The effective user; the superuser is number zero. -/
  user : Int := 0

structure ScriptRecord where
  name : String
  commands : List String
  simulated : Bool
  deriving DecidableEq, Repr

structure Session where
  files : Files.Tree := {}
  log : List Message := []
  output : String := ""
  /-- The argument lists of all calls of a program. -/
  called : List (List String) := []
  /-- The argument lists that were handed over to be started. -/
  started : List (List String) := []
  scripts : List ScriptRecord := []
  /-- How the scripts to come end; all others succeed. -/
  results : List RunResult := []

abbrev Act := ExceptT Fault (StateM Session)

namespace Act

/-- The messages and the outcome of a computation. -/
def ofLogged {α : Type} (x : Logged α) : Act α := fun s => (x.outcome, { s with log := s.log ++ x.record })

def fail {α : Type} (f : Fault) : Act α := throw f

def info (text : String) : Act Unit := ofLogged (logInfo text)

def debug (text : String) : Act Unit := ofLogged (logDebug text)

def error (text : String) : Act Unit := ofLogged (logError text)

def print (text : String) : Act Unit := modify (fun s => { s with output := s.output ++ text })

def change (f : Files.Tree → Option Files.Tree) : Act Unit := do
  let s ← get
  match f s.files with
  | some t => set { s with files := t }
  | none => throw (.system "")

def remember (r : ScriptRecord) : Act Unit := modify (fun s => { s with scripts := s.scripts ++ [r] })

/-- Calls a program and waits for its end.  A word with a null character cannot be handed over, and nothing is started. -/
def start (arguments : List String) : Act RunResult := do
  modify (fun s => { s with called := s.called ++ [arguments] })
  if arguments.any (·.toList.contains '\x00') then throw (.misuse .nullCharacter)
  let s ← get
  set { s with started := s.started ++ [arguments], results := s.results.tail }
  return s.results.head?.getD (.exited 0)

end Act

end Provision
