import Provision.Proofs.Shell.Clauses
/-!
# What a script does

A shell works through the clauses of a script (`step`).  It keeps the conditions around the current clause, passes over what
does not run, and stops at a command that fails and is not tested, once it was told to (`set -e`).  What the programs do is
left to a `Machine`.  A command that is the alternative to a question, or that runs unless a question is answered with yes,
runs exactly where the answer is no (`IsGuarded`).
-/
namespace Provision.Shell

variable {σ : Type}

/-- What programs do: from a state of the system and the words of a command, whether it succeeds and the next state. -/
structure Machine (σ : Type) where
  call : List String → σ → Bool × σ

inductive Frame where
  /-- Before `then`. -/
  | condition
  /-- Between `then` and `fi`, where the commands run only if the condition was met. -/
  | branch (met : Bool)
  deriving DecidableEq, Repr

structure Run (σ : Type) where
  world : σ
  /-- The commands that were called so far. -/
  calls : List (List String) := []
  /-- Whether the last command succeeded. -/
  succeeded : Bool := true
  /-- Whether the script stops at a command that fails. -/
  exitsOnError : Bool := false
  /-- The conditions around the next command, the innermost first. -/
  frames : List Frame := []
  /-- Whether the next command is the alternative to one that succeeded. -/
  skipping : Bool := false
  stopped : Bool := false

namespace Run

/-- A reserved word before a command. -/
def «open» (r : Run σ) (word : String) : Option (Run σ) :=
  match word, r.frames with
  | "!", _ => some r
  | "if", frames => some { r with frames := .condition :: frames }
  | "then", .condition :: frames => some { r with frames := .branch r.succeeded :: frames }
  | "fi", .branch met :: frames => some { r with frames := frames, succeeded := !met || r.succeeded }
  | _, _ => none

/-- Whether a failing command is tested, so that it does not stop the script. -/
def isTested (r : Run σ) (c : Clause) : Bool := c.orElse || c.opens.contains "!" || r.frames.contains .condition

def call (M : Machine σ) (c : Clause) (r : Run σ) : Run σ :=
  let (answer, world) := M.call c.words r.world
  let succeeded := answer != c.opens.contains "!"
  { r with
    world := world
    calls := r.calls ++ [c.words]
    succeeded := succeeded
    skipping := c.orElse && succeeded
    stopped := r.exitsOnError && !succeeded && !r.isTested c }

/-- Sets options of the shell.  Of those that are read, one says whether the script stops at a command that fails; the others
are about patterns and variables, which are not read. -/
def setOptions (args : List String) (r : Run σ) : Option (Run σ) :=
  match args.map String.toList with
  | ['-' :: flags] =>
    if flags.all ['e', 'f', 'u'].contains then some { r with exitsOnError := r.exitsOnError || flags.contains 'e' } else none
  | _ => none

def execute (M : Machine σ) (c : Clause) (r : Run σ) : Option (Run σ) :=
  match c.words with
  | [] => if c.orElse then none else some r
  | "set" :: args => if c.orElse then none else r.setOptions args
  | _ => some (r.call M c)

/-- **One clause of a script.** -/
def step (M : Machine σ) (r : Run σ) (c : Clause) : Option (Run σ) :=
  if r.stopped then some r
  else if r.skipping then if c.opens.isEmpty then some { r with skipping := c.orElse } else none
  else do
    let r ← c.opens.foldlM «open» r
    if r.frames.contains (.branch false) then some r else r.execute M c

def steps (M : Machine σ) (cs : List Clause) (r : Run σ) : Option (Run σ) := cs.foldlM (step M) r

/-- Whether a script can go on outside of all conditions, and stops at a command that fails. -/
structure Ready (r : Run σ) : Prop where
  running : r.stopped = false
  exits : r.exitsOnError = true
  frames : r.frames = []
  skipping : r.skipping = false

theorem steps_append (M : Machine σ) (bs cs : List Clause) (r : Run σ) :
    steps M (bs ++ cs) r = (steps M bs r).bind (steps M cs) :=
  List.foldlM_append

theorem steps_of_stopped {M : Machine σ} {r : Run σ} (h : r.stopped = true) (cs : List Clause) : steps M cs r = some r := by
  induction cs with
  | nil => rfl
  | cons c cs ih =>
    rw [steps, List.foldlM_cons, step, if_pos h]
    exact ih

theorem execute_nil (M : Machine σ) (opens : List String) (r : Run σ) : r.execute M ⟨opens, [], false⟩ = some r := rfl

theorem execute_of_ne_set {M : Machine σ} {w : String} (hw : w ≠ "set") (opens ws : List String) (orElse : Bool)
    (r : Run σ) :
    r.execute M ⟨opens, w :: ws, orElse⟩ = some (r.call M ⟨opens, w :: ws, orElse⟩) := by
  unfold execute
  split
  · rename_i h
    cases h
  · rename_i h
    exact absurd (List.cons.inj h).1 hw
  · rfl

end Run

/-- **Clauses that call a program only where the answer to a question is no.** -/
structure IsGuarded (M : Machine σ) (question action : List String) (cs : List Clause) : Prop where
  yes : ∀ {r : Run σ}, r.Ready → (M.call question r.world).1 = true → ∃ r', Run.steps M cs r = some r' ∧ r'.Ready ∧
    r'.world = (M.call question r.world).2 ∧ r'.calls = r.calls ++ [question]
  no : ∀ {r : Run σ}, r.Ready → (M.call question r.world).1 = false → ∃ r', Run.steps M cs r = some r' ∧
    let result := M.call action (M.call question r.world).2
    r'.world = result.2 ∧ if result.1 = true then r'.Ready else r'.stopped = true

section Guarded

variable (M : Machine σ) {v w : String} (vs ws : List String) (hv : v ≠ "set") (hw : w ≠ "set")
include hv hw

theorem isGuarded_alternative :
    IsGuarded M (v :: vs) (w :: ws) [{ words := v :: vs, orElse := true }, { words := w :: ws }] where
  yes := by
    rintro ⟨world, calls, succeeded, _, _, _, _⟩ ⟨rfl, rfl, rfl, rfl⟩ hyes
    dsimp only at hyes
    refine ⟨⟨(M.call (v :: vs) world).2, calls ++ [v :: vs], true, true, [], false, false⟩, ?_, ⟨rfl, rfl, rfl, rfl⟩,
      rfl, rfl⟩
    simp [Run.steps, Run.step, Run.execute_of_ne_set hv, Run.call, Run.isTested, hyes]
  no := by
    rintro ⟨world, calls, succeeded, _, _, _, _⟩ ⟨rfl, rfl, rfl, rfl⟩ hno
    dsimp only at hno ⊢
    generalize hresult : M.call (w :: ws) (M.call (v :: vs) world).2 = result
    have hall : Run.steps M [{ words := v :: vs, orElse := true }, { words := w :: ws }]
        ⟨world, calls, succeeded, true, [], false, false⟩ = some ⟨result.2, calls ++ [v :: vs] ++ [w :: ws], result.1,
          true, [], false, !result.1⟩ := by
      simp [Run.steps, Run.step, Run.execute_of_ne_set hv, Run.execute_of_ne_set hw, Run.call, Run.isTested, hno, hresult]
    cases hanswer : result.1 with
    | true =>
      rw [hanswer] at hall
      exact ⟨_, hall, rfl, rfl, rfl, rfl, rfl⟩
    | false =>
      rw [hanswer] at hall
      exact ⟨_, hall, rfl, rfl⟩

theorem isGuarded_condition :
    IsGuarded M (v :: vs) (w :: ws) [{ opens := ["if", "!"], words := v :: vs }, { opens := ["then"] }, { words := w :: ws },
      { opens := ["fi"] }] where
  yes := by
    rintro ⟨world, calls, succeeded, _, _, _, _⟩ ⟨rfl, rfl, rfl, rfl⟩ hyes
    dsimp only at hyes
    refine ⟨⟨(M.call (v :: vs) world).2, calls ++ [v :: vs], true, true, [], false, false⟩, ?_, ⟨rfl, rfl, rfl, rfl⟩,
      rfl, rfl⟩
    simp [Run.steps, Run.step, Run.open, Run.execute_of_ne_set hv, Run.execute_nil, Run.call, Run.isTested, hyes]
  no := by
    rintro ⟨world, calls, succeeded, _, _, _, _⟩ ⟨rfl, rfl, rfl, rfl⟩ hno
    dsimp only at hno ⊢
    generalize hresult : M.call (w :: ws) (M.call (v :: vs) world).2 = result
    have hthen : Run.steps M [{ opens := ["if", "!"], words := v :: vs }, { opens := ["then"] }, { words := w :: ws }]
        ⟨world, calls, succeeded, true, [], false, false⟩ = some ⟨result.2, calls ++ [v :: vs] ++ [w :: ws], result.1, true,
          [.branch true], false, !result.1⟩ := by
      simp [Run.steps, Run.step, Run.open, Run.execute_of_ne_set hv, Run.execute_of_ne_set hw, Run.execute_nil, Run.call,
        Run.isTested, hno, hresult]
    have hall := Run.steps_append M [{ opens := ["if", "!"], words := v :: vs }, { opens := ["then"] }, { words := w :: ws }]
      [{ opens := ["fi"] }] ⟨world, calls, succeeded, true, [], false, false⟩
    rw [hthen, Option.bind_some] at hall
    -- a script that the command has stopped does not come to the end of the condition
    cases hanswer : result.1 with
    | true =>
      rw [hanswer] at hall
      exact ⟨_, hall, rfl, rfl, rfl, rfl, rfl⟩
    | false =>
      rw [hanswer] at hall
      exact ⟨_, hall, rfl, rfl⟩

end Guarded

/-- **A script as it runs from a state of the system**, if all of it is read and every condition in it has an end. -/
def run (M : Machine σ) (script : String) (x : σ) : Option (Run σ) :=
  (clauses script).bind (fun cs => (Run.steps M cs { world := x }).filter (fun r => r.stopped || r.frames.isEmpty))

theorem run_eq_some_iff {M : Machine σ} {script : String} {cs : List Clause} (h : clauses script = some cs) {x : σ}
    {r : Run σ} :
    run M script x = some r ↔ Run.steps M cs { world := x } = some r ∧ (r.stopped = true ∨ r.frames = []) := by
  rw [run, h, Option.bind_some, Option.filter_eq_some_iff, Bool.or_eq_true, List.isEmpty_iff]

example : (run ⟨fun ws (_ : Unit) => (["yes", "made"].contains (ws.headD ""), ())⟩
      "set -e\nyes || never\nno || made\nif ! yes; then\n  never\nfi\nif ! no; then\n  made\nfi\nno\nnever\n" ()).map
    (fun r => (r.calls, r.stopped)) =
    some ([["yes"], ["no"], ["made"], ["yes"], ["no"], ["made"], ["no"]], true) := by
  rw [run, clauses, String.toList_ofList]
  decide +kernel

end Provision.Shell
