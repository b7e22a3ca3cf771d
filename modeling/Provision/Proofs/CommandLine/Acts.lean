import Mathlib.Order.Defs.Unbundled
import Provision.CommandLine.Execute
import Provision.Proofs.Faults.Scripts
import Provision.Proofs.Faults.Values
import Provision.Proofs.Files
/-!
# What an act does to a session

`Act.Does F` says of an act that it starts and prints nothing, that it changes the files only as `F` allows, and that it
ends neither by an interrupt.  It holds of acts in sequence, so each step of a run has one such lemma; a script that is run
has `Runner.run_eq` instead, and one that cannot be handed over `Runner.run_eq_of_not_handable`.
-/
namespace Provision

open Files (Path Tree)

namespace Session

/-- A change of a session that starts and prints nothing; `F` relates its files before and after. -/
structure Changes (F : Tree → Tree → Prop) (s t : Session) : Prop where
  files : F s.files t.files
  output : t.output = s.output
  started : t.started = s.started
  results : t.results = s.results

/-- How the script to come at a place ends. -/
def result (s : Session) (i : Nat) : RunResult := (s.results[i]?).getD (.exited 0)

theorem Changes.result {F : Tree → Tree → Prop} {s t : Session} (h : Changes F s t) (i : Nat) : t.result i = s.result i := by
  rw [Session.result, h.results]
  rfl

end Session

namespace Act

variable {α β : Type}

/-- An act in sequence ends with the fault of its first part, or goes on from where that ended. -/
theorem bind_cases (x : Act α) (f : α → Act β) (s : Session) :
    (∃ e t, x s = (.error e, t) ∧ (x >>= f) s = (.error e, t)) ∨ ∃ a t, x s = (.ok a, t) ∧ (x >>= f) s = f a t := by
  have hbind : (x >>= f) s = match x s with
    | (.ok a, t) => f a t
    | (.error e, t) => (.error e, t) := by
    change (ExceptT.bindCont f (x s).1 : StateM Session _) (x s).2 = _
    rcases x s with ⟨_ | _, t⟩ <;> rfl
  rw [hbind]
  rcases hx : x s with ⟨e | a, t⟩
  · exact .inl ⟨e, t, rfl, rfl⟩
  · exact .inr ⟨a, t, rfl, rfl⟩

theorem bind_ok {x : Act α} {s t : Session} {a : α} (h : x s = (.ok a, t)) (f : α → Act β) : (x >>= f) s = f a t := by
  obtain ⟨e, t', hx, -⟩ | ⟨b, t', hx, hf⟩ := bind_cases x f s
  · rw [h] at hx
    cases hx
  · rw [h] at hx
    cases hx
    exact hf

theorem bind_error {x : Act α} {s t : Session} {e : Fault} (h : x s = (.error e, t)) (f : α → Act β) :
    (x >>= f) s = (.error e, t) := by
  obtain ⟨e', t', hx, hf⟩ | ⟨b, t', hx, -⟩ := bind_cases x f s
  · rw [h] at hx
    cases hx
    exact hf
  · rw [h] at hx
    cases hx

/-- **What an act may do**: it starts and prints nothing, changes files as `F` allows, and is not interrupted. -/
def Does (F : Tree → Tree → Prop) (x : Act α) : Prop :=
  ∀ s, s.Changes F (x s).2 ∧ FailsIn (· ≠ .interrupted) (x s).1

namespace Does

variable {F : Tree → Tree → Prop} [IsPreorder Tree F]

theorem pure (a : α) : Does F (Pure.pure a) := fun s => ⟨⟨refl_of F s.files, rfl, rfl, rfl⟩, .ok a⟩

theorem ofLogged {x : Logged α} (h : FailsIn (· ≠ .interrupted) x.outcome) : Does F (Act.ofLogged x) :=
  fun s => ⟨⟨refl_of F s.files, rfl, rfl, rfl⟩, h⟩

theorem info (text : String) : Does F (Act.info text) := .ofLogged (.ok ())

theorem debug (text : String) : Does F (Act.debug text) := .ofLogged (.ok ())

theorem fail {f : Fault} (h : f ≠ .interrupted) : Does F (Act.fail f : Act α) :=
  fun s => ⟨⟨refl_of F s.files, rfl, rfl, rfl⟩, FailsIn.error_iff.2 h⟩

theorem liftM {x : Except Fault α} (h : FailsIn (· ≠ .interrupted) x) : Does F (liftM x : Act α) :=
  fun s => ⟨⟨refl_of F s.files, rfl, rfl, rfl⟩, h⟩

theorem change {f : Tree → Option Tree} (h : ∀ t u, f t = some u → F t u) : Does F (Act.change f) := by
  intro s
  have hchange : Act.change f s = (f s.files).elim (.error (.system ""), s) (fun t => (.ok (), { s with files := t })) := by
    unfold Act.change
    rw [Act.bind_ok (x := get) (a := s) (t := s) rfl]
    cases f s.files <;> rfl
  rw [hchange]
  cases hf : f s.files with
  | none => exact ⟨⟨refl_of F s.files, rfl, rfl, rfl⟩, FailsIn.error_iff.2 (by simp)⟩
  | some t => exact ⟨⟨h _ _ hf, rfl, rfl, rfl⟩, .ok ()⟩

theorem bind_of_result {x : Act α} {f : α → Act β} (hx : Does F x) (hf : ∀ s a, (x s).1 = .ok a → Does F (f a)) :
    Does F (x >>= f) := by
  intro s
  obtain ⟨e, t, hxs, hs⟩ | ⟨a, t, hxs, hs⟩ := bind_cases x f s
  · have h := hx s
    rw [hxs] at h
    rw [hs]
    exact ⟨h.1, FailsIn.error_iff.2 (h.2 e rfl)⟩
  · obtain ⟨h, -⟩ := hx s
    obtain ⟨h', hfault⟩ := hf s a (by rw [hxs]) t
    rw [hxs] at h
    rw [hs]
    exact ⟨⟨trans_of F h.files h'.files, h'.output.trans h.output, h'.started.trans h.started, h'.results.trans h.results⟩,
      hfault⟩

theorem bind {x : Act α} {f : α → Act β} (hx : Does F x) (hf : ∀ a, Does F (f a)) : Does F (x >>= f) :=
  hx.bind_of_result fun _ a _ => hf a

theorem forM {f : α → Act Unit} : ∀ {xs : List α}, (∀ x ∈ xs, Does F (f x)) → Does F (forM xs f)
  | [], _ => .pure ()
  | x :: xs, h => by
    obtain ⟨hx, hxs⟩ := List.forall_mem_cons.1 h
    rw [List.forM_cons]
    exact .bind hx fun _ => .forM hxs

end Does

end Act

namespace Runner

def call (name script : String) : List String := ["sh", "-c", script, "strata-" ++ name]

/-- Whether a script can be handed over: neither it nor its name has a null character. -/
def Handable (name script : String) : Prop := '\x00' ∉ name.toList ∧ '\x00' ∉ script.toList

instance (name script : String) : Decidable (Handable name script) := inferInstanceAs (Decidable (_ ∧ _))

theorem any_null_call_iff {name script : String} :
    (call name script).any (·.toList.contains '\x00') = true ↔ ¬ Handable name script := by
  have hshell : '\x00' ∉ "sh".toList ∧ '\x00' ∉ "-c".toList ∧ '\x00' ∉ "strata-".toList := by decide +kernel
  simp only [call, List.any_cons, List.any_nil, Bool.or_false, Bool.or_eq_true, List.contains_iff_mem, String.toList_append,
    List.mem_append, hshell, false_or]
  rw [Handable, not_and_or, not_not, not_not, or_comm]

def outcome (name : String) : RunResult → Except Fault Unit
  | .exited 0 => .ok ()
  | .exited code => .error (.scriptFailed name code)
  | .interrupted => .error .interrupted
  | .failed reason => .error (.scriptNotStarted name reason)

theorem outcome_eq_ok_iff {name : String} {r : RunResult} : outcome name r = .ok () ↔ r = .exited 0 := by
  fun_cases outcome name r <;> simp_all

theorem outcome_eq_interrupted_iff {name : String} {r : RunResult} :
    outcome name r = .error .interrupted ↔ r = .interrupted := by
  fun_cases outcome name r <;> simp

theorem run_eq_start {r : Runner} (hr : r.simulating = false) (name script : String) (s : Session) :
    ∃ t, r.run name script s = (Act.start (call name script) >>= r.finish name) t ∧ s.Changes Eq t ∧ t.called = s.called ∧
      t.scripts = s.scripts ++ [⟨name, Script.commandLines script, r.simulating⟩] := by
  unfold run
  rw [if_neg (by simp [hr])]
  exact ⟨_, rfl, ⟨rfl, rfl, rfl, rfl⟩, rfl, rfl⟩

theorem finish_eq (r : Runner) (name : String) (result : RunResult) (s : Session) :
    ∃ t, r.finish name result s = (outcome name result, t) ∧ s.Changes Eq t ∧ t.called = s.called ∧
    t.scripts = s.scripts := by
  unfold finish
  split
  case h_2 code hcode =>
    rw [outcome]
    · exact ⟨_, rfl, ⟨rfl, rfl, rfl, rfl⟩, rfl, rfl⟩
    · exact hcode
  all_goals exact ⟨_, rfl, ⟨rfl, rfl, rfl, rfl⟩, rfl, rfl⟩

/-- **A script that is run** is started, and how it ends is how the run goes on. -/
theorem run_eq {r : Runner} (hr : r.simulating = false) {name script : String} (h : Handable name script) (s : Session) :
    ∃ t, r.run name script s = (outcome name (s.result 0), t) ∧ t.called = s.called ++ [call name script] ∧
      t.started = s.started ++ [call name script] ∧ t.files = s.files ∧ t.output = s.output ∧
      (∀ i, t.result i = s.result (i + 1)) ∧
      t.scripts = s.scripts ++ [⟨name, Script.commandLines script, r.simulating⟩] := by
  obtain ⟨t, hrun, ht, hcalled, hscripts⟩ := run_eq_start hr name script s
  have hstart : Act.start (call name script) t = (.ok (t.result 0), { t with
      called := t.called ++ [call name script]
      started := t.started ++ [call name script]
      results := t.results.tail }) := by
    unfold Act.start
    rw [if_neg (fun hnull => any_null_call_iff.1 hnull h), Session.result, ← List.head?_eq_getElem?]
    rfl
  rw [hrun, Act.bind_ok hstart, ht.result]
  obtain ⟨u, hu, hchanges, hcalled', hkept⟩ := r.finish_eq name (s.result 0) _
  refine ⟨u, hu, hcalled'.trans (congrArg (· ++ _) hcalled), ?_, hchanges.files.symm.trans ht.files.symm,
    hchanges.output.trans ht.output, fun i => ?_, hkept.trans hscripts⟩
  · rw [hchanges.started, ht.started]
  · rw [hchanges.result, Session.result, List.getElem?_tail, ← ht.result, Session.result]

/-- **A script that cannot be handed over** is called and not started. -/
theorem run_eq_of_not_handable {r : Runner} (hr : r.simulating = false) {name script : String} (h : ¬ Handable name script)
    (s : Session) : ∃ t, r.run name script s = (.error (.misuse .nullCharacter), t) ∧
      t.called = s.called ++ [call name script] ∧ s.Changes Eq t ∧
      t.scripts = s.scripts ++ [⟨name, Script.commandLines script, r.simulating⟩] := by
  obtain ⟨t, hrun, ht, hcalled, hscripts⟩ := run_eq_start hr name script s
  have hstart : Act.start (call name script) t =
      (.error (.misuse .nullCharacter), { t with called := t.called ++ [call name script] }) := by
    unfold Act.start
    rw [if_pos (any_null_call_iff.2 h)]
    rfl
  exact ⟨{ t with called := t.called ++ [call name script] }, hrun.trans (Act.bind_error hstart _),
    congrArg (· ++ _) hcalled, ⟨ht.files, ht.output, ht.started, ht.results⟩, hscripts⟩

end Runner

namespace CommandLine

/-! ## Loading -/

theorem does_load {F : Tree → Tree → Prop} [IsPreorder Tree F] (source input : String) : (load source input).Does F := by
  have hparse (text : String) (isJson : Bool) : FailsIn (· ≠ .interrupted) (parseText text isJson) := by
    unfold parseText
    split
    · exact (Json.failsIn_parse text).mono fun _ h => h.isInput.ne_interrupted
    · exact (Yaml.failsIn_parse text).mono fun _ h => h.isInput.ne_interrupted
  have htext (bytes : ByteArray) : FailsIn (· ≠ .interrupted) (textOf bytes) := by
    unfold textOf
    split <;> simp
  unfold load
  split
  · exact .bind (.debug _) fun _ => .liftM (hparse _ _)
  · refine .bind (fun s => ⟨⟨refl_of F s.files, rfl, rfl, rfl⟩, .ok s⟩) fun s => ?_
    dsimp only
    split
    · exact .bind (.liftM (htext _)) fun _ => .bind (.debug _) fun _ => .liftM (hparse _ _)
    · exact .fail (by simp)
    · exact .fail (by simp)

/-- A text that was written is read back but for its line ends. -/
theorem textOf_toUTF8 (s : String) : textOf s.toUTF8 = .ok (String.ofList (withLineFeeds s.toList)) := by
  have hs : String.fromUTF8? s.toUTF8 = some s := by
    simp only [String.fromUTF8?, Option.dite_none_right_eq_some, Option.some.injEq]
    exact ⟨s.isValidUTF8, rfl⟩
  rw [textOf, hs]

theorem load_json {source text : String} {path : Path} {executable : Bool} {v : Value} {s : Session} (hsource : source ≠ "-")
    (hfind : s.files.find (Path.ofString source) = .file path ⟨text.toUTF8, executable⟩)
    (hname : (Path.ofString source).extension = ".json")
    (hparse : Json.parse (String.ofList (withLineFeeds text.toList)) = .ok v) (input : String) :
    ∃ t, load source input s = (.ok v, t) := by
  rw [load, if_neg hsource, Act.bind_ok (x := get) (a := s) (t := s) rfl]
  simp only [hfind, textOf_toUTF8, hname, BEq.rfl, parseText, if_true]
  rw [Act.bind_ok (x := liftM (Except.ok _)) (a := String.ofList (withLineFeeds text.toList)) (t := s) rfl, hparse]
  exact ⟨_, rfl⟩

/-! ## Artifacts -/

theorem failsIn_configText (c : Compiled) : FailsIn Fault.IsInput (configText c) :=
  .bind (HostConfig.failsIn_ofFacts _) fun _ => .bind (Json.failsIn_render _) fun _ => .ok _

def outputNames : List String := ["create.sh", "mount.sh", "host-config.json", "tools.txt", "fstab", "crypttab"]

theorem failsIn_outputs (c : Compiled) (a : Arguments) : FailsIn Fault.IsInput (outputs c a).outcome := by
  refine .outcome_bind (HostConfig.failsIn_ofFacts _) fun host => .outcome_bind (failsIn_configText c) fun config => ?_
  have hcrypttab (fstab : List (String × String)) : FailsIn Fault.IsInput (do
      let crypttab ← if a.generateCrypttab then do pure [("crypttab", ← host.crypttab)] else pure []
      return [("create.sh", c.createScript), ("mount.sh", c.mountScript), ("host-config.json", config),
        ("tools.txt", toolsText c)] ++ fstab ++ crypttab : Logged (List (String × String))).outcome := by
    dsimp only
    split
    · exact .outcome_bind host.failsIn_crypttab fun _ => .ok _
    · exact .ok _
  dsimp only
  split
  · exact .outcome_bind host.failsIn_fstab fun _ => hcrypttab _
  · exact hcrypttab _

theorem names_of_outputs {c : Compiled} {a : Arguments} {files : List (String × String)}
    (h : (outputs c a).outcome = .ok files) :
    ∀ e ∈ files, e.1 ∈ outputNames := by
  unfold outputs at h
  simp only [Traced.outcome_bind_eq_ok_iff] at h
  obtain ⟨host, -, config, -, h⟩ := h
  split at h <;> split at h <;> simp only [Traced.outcome_bind_eq_ok_iff, Traced.outcome_pure, Except.ok.injEq] at h
  · obtain ⟨_, -, _, rfl, _, -, _, rfl, rfl⟩ := h
    simp [outputNames]
  · obtain ⟨_, -, _, rfl, _, rfl, rfl⟩ := h
    simp [outputNames]
  · obtain ⟨_, rfl, _, -, _, rfl, rfl⟩ := h
    simp [outputNames]
  · obtain ⟨_, rfl, _, rfl, rfl⟩ := h
    simp [outputNames]

abbrev InDirectory (dir : Path) : Tree → Tree → Prop := Tree.OnlyIn dir outputNames

instance (dir : Path) : IsPreorder Tree (InDirectory dir) where
  refl := Tree.OnlyIn.refl dir outputNames
  trans _ _ _ := Tree.OnlyIn.trans

theorem does_createDirectory {F : Tree → Tree → Prop} [IsPreorder Tree F] {label : String} {path : Path}
    (h : ∀ t u, t.makeDirectories path = some u → F t u) : (createDirectory false label path).Does F :=
  .bind (.change h) fun _ => .debug _

theorem does_writeOutput (dir : Path) {name : String} (hname : name ∈ outputNames) (content : String) :
    (writeOutput false dir name content).Does (InDirectory dir) := by
  have hdown : name ≠ ".." := by
    rintro rfl
    simp [outputNames] at hname
  refine .bind (.change fun t u h => .write hname hdown h) fun _ => ?_
  dsimp only
  split
  · refine .bind (.change fun t u h => ?_) fun _ => .info _
    rw [← Option.some.inj h]
    exact .makeExecutable t hname hdown
  · exact .info _

/-- **Writing the artifacts** changes nothing but files of their directory. -/
theorem does_writeOutputs (c : Compiled) {a : Arguments} (hs : a.simulate = false) (dir : Path) :
    (writeOutputs c a dir).Does (InDirectory dir) := by
  unfold writeOutputs
  rw [hs]
  refine .bind (does_createDirectory fun t u h => .makeDirectories outputNames h) fun _ => ?_
  refine .bind_of_result (.ofLogged ((failsIn_outputs c a).mono fun _ h => h.ne_interrupted)) fun _ files hfiles => ?_
  exact .forM fun e he => does_writeOutput dir (names_of_outputs hfiles e he) e.2

/-! ## Tables of the target system -/

abbrev Anywhere : Tree → Tree → Prop := fun _ _ => True

instance : IsPreorder Tree Anywhere where
  refl _ := trivial
  trans _ _ _ _ _ := trivial

theorem does_writeTable (path : Path) (content : String) : (writeTable false path content).Does Anywhere :=
  .bind (does_createDirectory fun _ _ _ => trivial) fun _ => .bind (.change fun _ _ _ => trivial) fun _ => .info _

theorem does_writeTables (c : Compiled) {a : Arguments} (hs : a.simulate = false) : (writeTables c a).Does Anywhere := by
  have hcrypttab (host : HostConfig) (path : Path) : Act.Does Anywhere
      (if a.generateCrypttab && !host.containers.isEmpty then do
        let table ← host.crypttab
        writeTable false path table
      else pure ()) := by
    split
    · exact .bind (.liftM (host.failsIn_crypttab.mono fun _ h => h.ne_interrupted)) fun _ => does_writeTable _ _
    · exact .pure ()
  unfold writeTables
  rw [hs]
  refine .bind (.liftM ((HostConfig.failsIn_ofFacts _).mono fun _ h => h.ne_interrupted)) fun host => ?_
  dsimp only
  split
  · refine .bind (.ofLogged (host.failsIn_fstab.mono fun _ h => h.ne_interrupted)) fun table => ?_
    exact .bind (does_writeTable _ _) fun _ => hcrypttab host _
  · exact hcrypttab host _

end CommandLine

end Provision
