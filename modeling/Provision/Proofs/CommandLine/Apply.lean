import Provision.Proofs.CommandLine.Acts
import Provision.Proofs.Prerequisite
/-!
# How far a run that applies a layout gets

A run that applies a layout reads and compiles it, and then takes the steps of `CommandLine.steps` in turn, up to the first
that fails.  `Course` lists the ends that this can have (`course_of_execute`), and what the run has done by then follows
from each of them: no step is taken after one that failed (`apply_gated`).
-/
namespace Provision

open Files (Path Tree)

namespace Session

/-- A session in which scripts were run and nothing was printed; `F` relates the files before and after. -/
structure Ran (F : Tree → Tree → Prop) (runs : List (List String)) (s t : Session) : Prop where
  files : F s.files t.files
  output : t.output = s.output
  started : t.started = s.started ++ runs
  /-- The scripts to come end as those that followed the scripts that were run. -/
  left : ∀ i, t.result i = s.result (runs.length + i)

variable {F G : Tree → Tree → Prop} {runs : List (List String)} {s t u : Session}

theorem Ran.mono (h : s.Ran F runs t) (hFG : ∀ t u, F t u → G t u) : s.Ran G runs t :=
  ⟨hFG _ _ h.files, h.output, h.started, h.left⟩

theorem Ran.changes [IsTrans Tree F] (h : s.Ran F runs t) (h' : t.Changes F u) : s.Ran F runs u :=
  ⟨trans_of F h.files h'.files, h'.output.trans h.output, h'.started.trans h.started,
    fun i => (h'.result i).trans (h.left i)⟩

variable {α β : Type}

/-- **One more act** that runs no script ends the session, or the session goes on. -/
theorem Ran.act [IsTrans Tree F] (h : s.Ran F runs t) {x : Act α} (hx : x.Does F) (f : α → Act β) :
    (∃ e u, x t = (.error e, u) ∧ (x >>= f) t = (.error e, u) ∧ e ≠ .interrupted ∧ s.Ran F runs u) ∨
      ∃ a u, x t = (.ok a, u) ∧ (x >>= f) t = f a u ∧ s.Ran F runs u := by
  obtain ⟨hchanges, hfault⟩ := hx t
  obtain ⟨e, u, hxt, hend⟩ | ⟨a, u, hxt, hend⟩ := Act.bind_cases x f t
  · rw [hxt] at hchanges hfault
    exact .inl ⟨e, u, hxt, hend, hfault e rfl, h.changes hchanges⟩
  · rw [hxt] at hchanges
    exact .inr ⟨a, u, hxt, hend, h.changes hchanges⟩

/-- **One more script** ends the session, also if it cannot be handed over, or, if it exits with zero, the session goes
on. -/
theorem Ran.script [IsPreorder Tree F] {r : Runner} (hr : r.simulating = false) (h : s.Ran F runs t) (name script : String)
    (f : Unit → Act β) :
    (∃ e u, e ≠ .interrupted ∧ s.Ran F runs u ∧ (r.run name script >>= f) t = (.error e, u)) ∨
    ∃ u, s.Ran F (runs ++ [Runner.call name script]) u ∧
      ((∃ e, Runner.outcome name (s.result runs.length) = .error e ∧ s.result runs.length ≠ .exited 0 ∧
          (r.run name script >>= f) t = (.error e, u)) ∨
        s.result runs.length = .exited 0 ∧ (r.run name script >>= f) t = f () u) := by
  by_cases hnull : Runner.Handable name script
  case neg =>
    obtain ⟨u, hrun, -, hchanges, -⟩ := r.run_eq_of_not_handable hr hnull t
    have hu : t.Changes F u := ⟨hchanges.files ▸ refl_of F _, hchanges.output, hchanges.started, hchanges.results⟩
    exact .inl ⟨_, u, by simp, h.changes hu, Act.bind_error hrun f⟩
  obtain ⟨u, hrun, -, hstarted, hfiles, houtput, hnext, -⟩ := r.run_eq hr hnull t
  refine .inr ⟨u, ⟨hfiles ▸ h.files, houtput.trans h.output, ?_, fun i => ?_⟩, ?_⟩
  · rw [hstarted, h.started, List.append_assoc]
  · rw [hnext, h.left, List.length_append, List.length_singleton, Nat.add_assoc, Nat.add_comm 1]
  · rw [h.left, Nat.add_zero] at hrun
    cases hend : Runner.outcome name (s.result runs.length) with
    | error e =>
      refine .inl ⟨e, rfl, fun h => ?_, Act.bind_error (hend ▸ hrun) f⟩
      rw [h] at hend
      cases hend
    | ok _ => exact .inr ⟨Runner.outcome_eq_ok_iff.1 hend, Act.bind_ok (hend ▸ hrun) f⟩

end Session

namespace Act

/-- Takes acts in turn, up to the first that fails. -/
def inTurn : List (Act Unit) → Act Unit
  | [] => pure ()
  | x :: xs => x >>= fun _ => inTurn xs

def Succeed : List (Act Unit) → Session → Prop
  | [], _ => True
  | x :: xs, s => (x s).1 = .ok () ∧ Succeed xs (x s).2

theorem inTurn_eq_ok_iff : ∀ (xs : List (Act Unit)) (s : Session), (inTurn xs s).1 = .ok () ↔ Succeed xs s
  | [], _ => iff_of_true rfl trivial
  | x :: xs, s => by
    rw [inTurn, Succeed]
    obtain ⟨e, t, hx, hs⟩ | ⟨_, t, hx, hs⟩ := bind_cases x (fun _ => inTurn xs) s
    · rw [hs, hx]
      simp
    · rw [hs, hx, inTurn_eq_ok_iff xs t]
      simp

end Act

namespace CommandLine

/-! ## The steps of a run -/

def prepare (a : Arguments) (input : String) : Act Compiled := do
  let tree ← load a.layout input
  Act.ofLogged (compile tree a.root)

def deliver (c : Compiled) (a : Arguments) : Act Unit :=
  match a.outputDirectory.filter (· != "") with
  | some directory => writeOutputs c a (Path.ofString directory)
  | none => pure ()

def steps (env : Environment) (c : Compiled) (a : Arguments) : List (Act Unit) := [
  deliver c a,
  Act.ofLogged (Prerequisite.check env false c.tools),
  (runnerOf a).run "create" c.createScript,
  (runnerOf a).run "mount" c.mountScript,
  writeTables c a]

def announce (a : Arguments) : Act Unit := do
  Act.info (Colour.success.paint "Storage layout applied successfully" (!a.plain))
  Act.info ("The system is mounted at " ++ a.root)

def calls (c : Compiled) : List (List String) := [Runner.call "create" c.createScript, Runner.call "mount" c.mountScript]

/-- Files change only where the artifacts are written, if they are. -/
def Delivers (a : Arguments) : Tree → Tree → Prop :=
  match a.outputDirectory.filter (· != "") with
  | some directory => InDirectory (Path.ofString directory)
  | none => Eq

section

variable {env : Environment} {a : Arguments} {input : String} {s t : Session} {runs : List (List String)}

instance : IsPreorder Tree (Delivers a) := by
  unfold Delivers
  split <;> infer_instance

/-- **A run that applies a layout** compiles it and takes the steps in turn. -/
theorem execute_eq (ha : a.apply = true) (hs : a.simulate = false) :
    execute env a input = prepare a input >>= fun c => Act.inTurn (steps env c a) >>= fun _ => announce a := by
  simp only [execute, prepare, steps, deliver, applyLayout, announce, ha, hs, Bool.false_eq_true, if_false, if_true,
    Bool.not_true, bind_assoc, Act.inTurn]
  refine bind_congr fun tree => bind_congr fun c => ?_
  cases a.outputDirectory.filter (· != "") <;> simp only [pure_bind]

theorem does_prepare (a : Arguments) (input : String) : (prepare a input).Does Eq :=
  .bind (does_load a.layout input) fun tree => .ofLogged ((failsIn_compile tree a.root).mono fun _ h => h.ne_interrupted)

theorem does_deliver (c : Compiled) (hs : a.simulate = false) : (deliver c a).Does (Delivers a) := by
  unfold deliver Delivers
  split
  · exact does_writeOutputs c hs _
  · exact .pure ()

theorem does_announce : (announce a).Does Anywhere := .bind (.info _) fun _ => .info _

/-! ## The ends of a run -/

/-- Whether the prerequisites of a layout are met: the user may do everything, and has all programs. -/
def Permits (env : Environment) (c : Compiled) : Prop :=
  env.user = 0 ∧ ∀ p ∈ env.missing, ¬ Prerequisite.Provides c.tools p

/-- **How a run ends that applies a layout**: by the scripts that it ran, its outcome and the session that it leaves. -/
inductive Course (env : Environment) (a : Arguments) (input : String) (s : Session) :
    List (List String) → Except Fault Unit → Session → Prop
  /-- There is no layout, or it does not compile. -/
  | refused {f : Fault} {t : Session} (hprep : (prepare a input s).1 = .error f) (hf : f ≠ .interrupted)
      (ht : s.Ran Eq [] t) : Course env a input s [] (.error f) t
  /-- The artifacts cannot be written, a prerequisite is not met, or the creation script cannot be handed over. -/
  | stopped {c : Compiled} {f : Fault} {t : Session} (hprep : (prepare a input s).1 = .ok c) (hf : f ≠ .interrupted)
      (ht : s.Ran (Delivers a) [] t) : Course env a input s [] (.error f) t
  /-- The creation script does not succeed. -/
  | created {c : Compiled} {t : Session} (hprep : (prepare a input s).1 = .ok c) (hpermits : Permits env c)
      (hcreate : s.result 0 ≠ .exited 0) (ht : s.Ran (Delivers a) [Runner.call "create" c.createScript] t) :
      Course env a input s [Runner.call "create" c.createScript] (Runner.outcome "create" (s.result 0)) t
  /-- The mount script cannot be handed over. -/
  | unmounted {c : Compiled} {f : Fault} {t : Session} (hprep : (prepare a input s).1 = .ok c) (hpermits : Permits env c)
      (hcreate : s.result 0 = .exited 0) (hf : f ≠ .interrupted)
      (ht : s.Ran (Delivers a) [Runner.call "create" c.createScript] t) :
      Course env a input s [Runner.call "create" c.createScript] (.error f) t
  /-- The mount script does not succeed. -/
  | mounted {c : Compiled} {t : Session} (hprep : (prepare a input s).1 = .ok c) (hpermits : Permits env c)
      (hcreate : s.result 0 = .exited 0) (hmount : s.result 1 ≠ .exited 0) (ht : s.Ran (Delivers a) (calls c) t) :
      Course env a input s (calls c) (Runner.outcome "mount" (s.result 1)) t
  /-- Both scripts succeed; the tables may fail. -/
  | applied {c : Compiled} {r : Except Fault Unit} {t : Session} (hprep : (prepare a input s).1 = .ok c)
      (hpermits : Permits env c) (hcreate : s.result 0 = .exited 0) (hmount : s.result 1 = .exited 0)
      (hr : FailsIn (· ≠ .interrupted) r) (ht : s.Ran Anywhere (calls c) t) : Course env a input s (calls c) r t

theorem failsIn_check (env : Environment) (c : Compiled) :
    FailsIn (· ≠ .interrupted) (Prerequisite.check env false c.tools).outcome := by
  unfold Prerequisite.check
  rw [if_neg Bool.false_ne_true]
  split
  · simp
  · refine .outcome_bind (Prerequisite.outcome_missing env _ ▸ .ok _) fun missing => ?_
    split <;> simp

/-- **A run that applies a layout has one of these ends.** -/
theorem course_of_execute (env : Environment) (input : String) (s : Session) (ha : a.apply = true)
    (hs : a.simulate = false) :
    ∃ runs, Course env a input s runs (execute env a input s).1 (execute env a input s).2 := by
  have hrunner : (runnerOf a).simulating = false := hs
  have hstart : s.Ran Eq [] s := ⟨rfl, rfl, (List.append_nil _).symm, fun i => by rw [List.length_nil, Nat.zero_add]⟩
  simp only [execute_eq ha hs, steps, Act.inTurn, bind_assoc, pure_bind]
  obtain ⟨f, t, hprep, hend, hf, ht⟩ | ⟨c, t, hprep, hend, ht⟩ := hstart.act (does_prepare a input) _
  · rw [hend]
    exact ⟨_, .refused (congrArg Prod.fst hprep) hf ht⟩
  replace hprep : (prepare a input s).1 = .ok c := congrArg Prod.fst hprep
  replace ht : s.Ran (Delivers a) [] t := ht.mono fun t _ h => h ▸ refl_of (Delivers a) t
  rw [hend]
  obtain ⟨f, u, -, hend, hf, hu⟩ | ⟨_, u, -, hend, hu⟩ := ht.act (does_deliver c hs) _
  · rw [hend]
    exact ⟨_, .stopped hprep hf hu⟩
  rw [hend]
  obtain ⟨f, v, -, hend, hf, hv⟩ | ⟨_, v, hcheck, hend, hv⟩ := hu.act (Act.Does.ofLogged (failsIn_check env c)) _
  · rw [hend]
    exact ⟨_, .stopped hprep hf hv⟩
  have hpermits : Permits env c := Prerequisite.check_eq_ok_iff.1 (congrArg Prod.fst hcheck)
  rw [hend]
  obtain ⟨f, w, hf, hw, hend⟩ | ⟨w, hw, ⟨f, hf, hcreate, hend⟩ | ⟨hcreate, hend⟩⟩ :=
    hv.script hrunner "create" c.createScript _
  · rw [hend]
    exact ⟨_, .stopped hprep hf hw⟩
  · rw [hend]
    dsimp only
    rw [← hf]
    exact ⟨_, .created hprep hpermits hcreate hw⟩
  rw [hend]
  obtain ⟨f, x, hf, hx, hend⟩ | ⟨x, hx, ⟨f, hf, hmount, hend⟩ | ⟨hmount, hend⟩⟩ :=
    hw.script hrunner "mount" c.mountScript _
  · rw [hend]
    exact ⟨_, .unmounted hprep hpermits hcreate hf hx⟩
  · rw [hend]
    dsimp only
    rw [← hf]
    exact ⟨_, .mounted hprep hpermits hcreate hmount hx⟩
  rw [hend]
  obtain ⟨hy, hr⟩ := ((does_writeTables c hs).bind fun _ => does_announce) x
  exact ⟨_, .applied hprep hpermits hcreate hmount hr ((hx.mono fun _ _ _ => trivial).changes hy)⟩

/-! ## What a run may do -/

/-- **What a run that applies a layout has done** by its end: the scripts that it ran, its exit code and the session it
leaves. -/
structure Gated (env : Environment) (a : Arguments) (input : String) (s : Session) (runs : List (List String)) (code : Nat)
    (t : Session) : Prop where
  started : t.started = s.started ++ runs
  output : t.output = s.output
  /-- It runs the scripts of its layout, the creation script first. -/
  scripts : ∀ c, (prepare a input s).1 = .ok c → runs <+: calls c
  /-- It runs nothing before its prerequisites are met. -/
  permitted : runs ≠ [] → ∃ c, (prepare a input s).1 = .ok c ∧ Permits env c
  /-- It mounts nothing before everything is created. -/
  mounting : 2 ≤ runs.length → s.result 0 = .exited 0
  /-- It writes artifacts at most, unless both scripts succeeded. -/
  files : ¬ (runs.length = 2 ∧ s.result 0 = .exited 0 ∧ s.result 1 = .exited 0) → Delivers a s.files t.files
  /-- It writes no table of the target system unless both scripts succeeded, where the artifacts go elsewhere. -/
  tables : ¬ (runs.length = 2 ∧ s.result 0 = .exited 0 ∧ s.result 1 = .exited 0) → ∀ name : String, name ≠ ".." →
    (∀ d ∈ a.outputDirectory, Tree.target (Path.ofString d) ≠ Tree.target ((Path.ofString a.root).child "etc")) →
      t.files.file? (Tree.target (((Path.ofString a.root).child "etc").child name)) =
        s.files.file? (Tree.target (((Path.ofString a.root).child "etc").child name))
  /-- It does nothing for a layout that does not compile. -/
  refused : ∀ f, (prepare a input s).1 = .error f → runs = [] ∧ t.files = s.files ∧ code = 1
  succeeded : code = 0 ↔ ∃ c, (prepare a input s).1 = .ok c ∧ Act.Succeed (steps env c a) (prepare a input s).2
  interrupted : code = 130 ↔ ∃ i < runs.length, s.result i = .interrupted
  failed : code = 0 ∨ code = 130 ∨ code = 1

def codeOf : Except Fault Unit → Nat
  | .ok _ => 0
  | .error f => exitCode f

theorem exitCode_eq_interrupted_iff {f : Fault} : exitCode f = 130 ↔ f = .interrupted := by
  fun_cases exitCode f <;> simp_all

theorem exitCode_eq_one {f : Fault} (h : f ≠ .interrupted) : exitCode f = 1 := by
  fun_cases exitCode f
  · exact absurd rfl h
  · rfl

theorem codeOf_eq_zero_iff {r : Except Fault Unit} : codeOf r = 0 ↔ r = .ok () := by
  cases r with
  | error f =>
    rw [codeOf]
    fun_cases exitCode f <;> simp
  | ok _ => exact iff_of_true rfl rfl

theorem codeOf_eq_interrupted_iff {r : Except Fault Unit} : codeOf r = 130 ↔ r = .error .interrupted := by
  cases r with
  | error f => rw [codeOf, exitCode_eq_interrupted_iff, Except.error.injEq]
  | ok _ => simp [codeOf]

theorem codeOf_cases (r : Except Fault Unit) : codeOf r = 0 ∨ codeOf r = 130 ∨ codeOf r = 1 := by
  cases r with
  | error f =>
    rw [codeOf]
    fun_cases exitCode f <;> simp
  | ok _ => exact .inl rfl

theorem runWith_eq (env : Environment) (a : Arguments) (input : String) (s : Session) : ∃ log,
    runWith env a input s = (codeOf (execute env a input s).1, { (execute env a input s).2 with log := log }) := by
  unfold runWith
  rcases execute env a input s with ⟨f | _, t⟩ <;> exact ⟨_, rfl⟩

theorem execute_eq_ok_iff (ha : a.apply = true) (hs : a.simulate = false) : (execute env a input s).1 = .ok () ↔
    ∃ c, (prepare a input s).1 = .ok c ∧ Act.Succeed (steps env c a) (prepare a input s).2 := by
  rw [execute_eq ha hs]
  obtain ⟨f, t, hprep, hend⟩ | ⟨c, t, hprep, hend⟩ := Act.bind_cases (prepare a input) _ s
  · rw [hend, hprep]
    simp
  rw [hend, hprep]
  simp only [Except.ok.injEq, exists_eq_left', ← Act.inTurn_eq_ok_iff]
  obtain ⟨f, u, hsteps, hend⟩ | ⟨_, u, hsteps, hend⟩ := Act.bind_cases (Act.inTurn (steps env c a)) (fun _ => announce a) t
  · rw [hend, hsteps]
  · rw [hend, hsteps]
    exact iff_of_true rfl rfl

theorem Course.ran {r : Except Fault Unit} (h : Course env a input s runs r t) : ∃ F, s.Ran F runs t := by
  cases h <;> exact ⟨_, ‹_›⟩

theorem Course.scripts {r : Except Fault Unit} (h : Course env a input s runs r t) {c : Compiled}
    (hc : (prepare a input s).1 = .ok c) : runs <+: calls c := by
  have heq {c' : Compiled} (hc' : (prepare a input s).1 = .ok c') : c' = c := Except.ok.inj (hc'.symm.trans hc)
  cases h with
  | refused | stopped => exact List.nil_prefix
  | created hprep | unmounted hprep => exact heq hprep ▸ ⟨[_], rfl⟩
  | mounted hprep | applied hprep => exact heq hprep ▸ List.prefix_refl _

theorem Course.permitted {r : Except Fault Unit} (h : Course env a input s runs r t) (hruns : runs ≠ []) :
    ∃ c, (prepare a input s).1 = .ok c ∧ Permits env c := by
  cases h with
  | refused | stopped => exact absurd rfl hruns
  | created hprep hpermits | unmounted hprep hpermits | mounted hprep hpermits | applied hprep hpermits =>
    exact ⟨_, hprep, hpermits⟩

theorem Course.mounting {r : Except Fault Unit} (h : Course env a input s runs r t) (hruns : 2 ≤ runs.length) :
    s.result 0 = .exited 0 := by
  cases h with
  | refused | stopped | created | unmounted => simp at hruns
  | mounted _ _ hcreate | applied _ _ hcreate => exact hcreate

theorem Course.files {r : Except Fault Unit} (h : Course env a input s runs r t)
    (hruns : ¬ (runs.length = 2 ∧ s.result 0 = .exited 0 ∧ s.result 1 = .exited 0)) : Delivers a s.files t.files := by
  cases h with
  | refused _ _ ht => exact ht.files ▸ refl_of (Delivers a) _
  | stopped _ _ ht | created _ _ _ ht | unmounted _ _ _ _ ht | mounted _ _ _ _ ht => exact ht.files
  | applied _ _ hcreate hmount => exact absurd ⟨rfl, hcreate, hmount⟩ hruns

theorem Course.refused_of {r : Except Fault Unit} (h : Course env a input s runs r t) {f : Fault}
    (hf : (prepare a input s).1 = .error f) : runs = [] ∧ t.files = s.files ∧ codeOf r = 1 := by
  cases h with
  | refused _ hf' ht => exact ⟨rfl, ht.files.symm, exitCode_eq_one hf'⟩
  | stopped hprep | created hprep | unmounted hprep | mounted hprep | applied hprep =>
    rw [hprep] at hf
    cases hf

theorem exists_call_iff (c : Compiled) {P : Nat → Prop} : (∃ i < (calls c).length, P i) ↔ P 0 ∨ P 1 := by
  change (∃ i < 0 + 1 + 1, P i) ↔ _
  simp only [Nat.exists_lt_succ_left, Nat.not_lt_zero, false_and, exists_false, or_false]

theorem Course.interrupted {r : Except Fault Unit} (h : Course env a input s runs r t) :
    r = .error .interrupted ↔ ∃ i < runs.length, s.result i = .interrupted := by
  cases h with
  | refused _ hf | stopped _ hf => simp [hf]
  | created => simp [Runner.outcome_eq_interrupted_iff]
  | unmounted _ _ hcreate hf => simp [hcreate, hf]
  | mounted _ _ hcreate => simp [Runner.outcome_eq_interrupted_iff, exists_call_iff, hcreate]
  | applied _ _ hcreate hmount hr =>
    have hne : r ≠ .error .interrupted := fun h => hr _ h rfl
    simp [hne, exists_call_iff, hcreate, hmount]

/-- Where the artifacts are written elsewhere, the tables of the target system stay as they are. -/
theorem file?_table_of_delivers {before after : Tree} (hfiles : Delivers a before after) {name : String}
    (hname : name ≠ "..")
    (helsewhere : ∀ d ∈ a.outputDirectory,
      Tree.target (Path.ofString d) ≠ Tree.target ((Path.ofString a.root).child "etc")) :
    after.file? (Tree.target (((Path.ofString a.root).child "etc").child name)) =
      before.file? (Tree.target (((Path.ofString a.root).child "etc").child name)) := by
  cases hd : a.outputDirectory.filter (· != "") with
  | none =>
    rw [Delivers, hd] at hfiles
    rw [hfiles]
  | some d =>
    rw [Delivers, hd] at hfiles
    by_contra hne
    obtain ⟨other, -, heq⟩ := hfiles.files _ hne
    rw [Tree.target_child _ hname] at heq
    have htarget := congrArg Path.parent heq
    rw [Path.parent_child, Path.parent_child] at htarget
    exact helsewhere d (Option.filter_eq_some_iff.1 hd).1 htarget.symm

/-- **Applying is gated step by step.** -/
theorem apply_gated (env : Environment) (argv : List String) (input : String) (s : Session) :
    (∀ stop, Arguments.parse argv = .error stop → (run env argv input s).2 = s) ∧
    ∀ a, Arguments.parse argv = .ok a → a.apply = true → a.simulate = false →
      ∃ runs, Gated env a input s runs (run env argv input s).1 (run env argv input s).2 := by
  refine ⟨fun stop hparse => by rw [run, hparse], fun a hparse ha hs => ?_⟩
  obtain ⟨runs, h⟩ := course_of_execute env input s ha hs
  obtain ⟨log, hrun⟩ := runWith_eq env a input s
  rw [run, hparse]
  dsimp only
  rw [hrun]
  obtain ⟨F, hran⟩ := h.ran
  refine ⟨runs, {
    started := hran.started
    output := hran.output
    scripts := fun _ => h.scripts
    permitted := h.permitted
    mounting := h.mounting
    files := h.files
    tables := fun hfailed _ => file?_table_of_delivers (h.files hfailed)
    refused := fun _ => h.refused_of
    succeeded := ?succeeded
    interrupted := ?interrupted
    failed := codeOf_cases _ }⟩
  case succeeded => rw [codeOf_eq_zero_iff, execute_eq_ok_iff ha hs]
  case interrupted => rw [codeOf_eq_interrupted_iff, h.interrupted]

end

/-- A creation script that fails is the last script, and the files stay as they are. -/
theorem apply_gated_of_failed_creation :
    let text := "\x7b\"nodev\": \x7b\"/\": \x7b\"type\": \"nodev\", \"fsType\": \"tmpfs\"\x7d\x7d\x7d"
    let s : Session := { files := { files := [(⟨"", ["disks.json"]⟩, ⟨text.toUTF8, false⟩)] }, results := [.exited 3] }
    ∃ a c, Arguments.parse ["--apply", "disks.json"] = .ok a ∧ (prepare a "" s).1 = .ok c ∧
      (run {} ["--apply", "disks.json"] "" s).2.started <+: [Runner.call "create" c.createScript] ∧
      (run {} ["--apply", "disks.json"] "" s).2.files = s.files := by
  intro text s
  have hparse : Arguments.parse ["--apply", "disks.json"] = .ok { layout := "disks.json", apply := true } := by
    decide +kernel
  have hpath : Path.ofString "disks.json" = ⟨"", ["disks.json"]⟩ := by decide +kernel
  have hfind (f : Files.File) : ({ files := [(⟨"", ["disks.json"]⟩, f)] } : Tree).find (Path.ofString "disks.json") =
      .file ⟨"", ["disks.json"]⟩ f := by
    rw [hpath, Tree.find, if_neg (by decide +kernel), if_neg (by decide +kernel), Tree.walk, if_neg (by decide +kernel)]
    rfl
  have hcompiles : ((Json.parse (String.ofList (withLineFeeds text.toList))).toOption.bind (fun tree =>
      (compile tree "/mnt").outcome.toOption)).isSome = true := by decide +kernel
  obtain ⟨c, hc⟩ := Option.isSome_iff_exists.1 hcompiles
  obtain ⟨tree, hread, hc⟩ := Option.bind_eq_some_iff.1 hc
  obtain ⟨t, hload⟩ := load_json (s := s) (by decide) (hfind _) (by decide +kernel) (eq_ok_of_toOption hread) ""
  have hprep : (prepare { layout := "disks.json", apply := true } "" s).1 = .ok c := by
    rw [prepare, Act.bind_ok hload]
    exact eq_ok_of_toOption hc
  obtain ⟨runs, h⟩ := (apply_gated {} ["--apply", "disks.json"] "" s).2 _ hparse rfl rfl
  have hruns : runs.length ≤ 1 := by
    by_contra hlong
    exact absurd (h.mounting (by omega)) (by decide)
  refine ⟨_, c, hparse, hprep, ?_, ?_⟩
  · rw [h.started]
    exact List.prefix_of_prefix_length_le (h.scripts c hprep) ⟨[_], rfl⟩ hruns
  · refine (h.files ?_).symm
    omega

end CommandLine

end Provision
