import Provision.Proofs.CommandLine.Apply
import Provision.Proofs.CommandLine.Report
/-!
# Simulations

A simulation reads the files and nothing else of the machine: `Act.Tells` says of an act that its course is the same in all
sessions with the same files, and that it only logs, prints and keeps records.  Every step of a simulated run is such an act,
so the run changes nothing and ends in the same way on every machine (`simulation_has_no_effect`).  Its report lists the
commands of the two scripts that a run of the same arguments in earnest hands to the shell.
-/
namespace Provision

open Files (Path Tree)

namespace Session

def told (s : Session) (log : List Message) (kept : List ScriptRecord) (text : String) : Session :=
  { s with log := s.log ++ log, scripts := s.scripts ++ kept, output := s.output ++ text }

theorem told_nil (s : Session) (log : List Message) : s.told log [] "" = { s with log := s.log ++ log } := by
  rw [told, List.append_nil, String.append_empty]

theorem told_told (s : Session) (log log' : List Message) (kept kept' : List ScriptRecord) (text text' : String) :
    (s.told log kept text).told log' kept' text' = s.told (log ++ log') (kept ++ kept') (text ++ text') := by
  simp only [told, List.append_assoc, String.append_assoc]

end Session

namespace Act

variable {α β : Type} {files : Tree}

/-- **An act that depends on files only**: in every session with the files `files` it ends with `r`, keeps records of the
scripts `kept`, and prints `text` of the scripts on record before it; what it logs is always the same. -/
def Tells (files : Tree) (x : Act α) (r : Except Fault α) (kept : List ScriptRecord)
    (text : List ScriptRecord → String) : Prop :=
  ∃ log, ∀ s : Session, s.files = files → x s = (r, s.told log kept (text s.scripts))

abbrev silent : List ScriptRecord → String := fun _ => ""

theorem tells_ofLogged (x : Logged α) : Tells files (ofLogged x) x.outcome [] silent :=
  ⟨x.record, fun s _ => by
    rw [Session.told_nil]
    rfl⟩

theorem tells_ofLogged_ok {x : Logged α} {a : α} (h : x.outcome = .ok a) : Tells files (ofLogged x) (.ok a) [] silent :=
  h ▸ tells_ofLogged x

theorem tells_liftM (x : Except Fault α) : Tells files (liftM x : Act α) x [] silent :=
  ⟨[], fun s _ => by
    rw [Session.told_nil, List.append_nil]
    rfl⟩

theorem tells_pure (a : α) : Tells files (pure a) (.ok a) [] silent := tells_liftM (.ok a)

theorem tells_fail (f : Fault) : Tells files (fail f : Act α) (.error f) [] silent := tells_liftM (.error f)

theorem tells_info (message : String) : Tells files (info message) (.ok ()) [] silent := tells_ofLogged _

theorem tells_debug (message : String) : Tells files (debug message) (.ok ()) [] silent := tells_ofLogged _

theorem tells_remember (script : ScriptRecord) : Tells files (remember script) (.ok ()) [script] silent :=
  ⟨[], fun s _ => by
    rw [Session.told, List.append_nil, String.append_empty]
    rfl⟩

theorem tells_print (text : String) : Tells files (print text) (.ok ()) [] (fun _ => text) :=
  ⟨[], fun s _ => by
    rw [Session.told, List.append_nil, List.append_nil]
    rfl⟩

theorem tells_printOf (text : List ScriptRecord → String) :
    Tells files (get >>= fun s => print (text s.scripts)) (.ok ()) [] text :=
  ⟨[], fun s _ => by
    rw [Session.told, List.append_nil, List.append_nil]
    rfl⟩

theorem exists_of_bind_ok {x : Act α} {f : α → Act β} {s : Session} {b : β} (h : ((x >>= f) s).1 = .ok b) :
    ∃ a t, x s = (.ok a, t) ∧ (f a t).1 = .ok b := by
  obtain ⟨e, t, -, hs⟩ | ⟨a, t, hx, hs⟩ := bind_cases x f s
  · rw [hs] at h
    cases h
  · exact ⟨a, t, hx, hs ▸ h⟩

theorem Tells.outcome {x : Act α} {r : Except Fault α} {kept : List ScriptRecord} {text : List ScriptRecord → String}
    {s : Session} (h : Tells s.files x r kept text) : (x s).1 = r := by
  obtain ⟨log, h⟩ := h
  rw [h s rfl]

namespace Tells

variable {x : Act α} {f : α → Act β} {a : α} {r : Except Fault β} {kept kept' : List ScriptRecord}
  {text : List ScriptRecord → String}

theorem bind (hx : Tells files x (.ok a) kept silent) (hf : Tells files (f a) r kept' text) :
    Tells files (x >>= f) r (kept ++ kept') (fun before => text (before ++ kept)) := by
  obtain ⟨log, hx⟩ := hx
  obtain ⟨log', hf⟩ := hf
  refine ⟨log ++ log', fun s hs => ?_⟩
  rw [bind_ok (hx s hs), hf (s.told log kept (silent s.scripts)) hs, Session.told_told, String.empty_append]
  rfl

theorem next (hx : Tells files x (.ok a) [] silent) (hf : Tells files (f a) r kept text) :
    Tells files (x >>= f) r kept text := by
  have h := hx.bind hf
  simp only [List.append_nil, List.nil_append] at h
  exact h

theorem stop {e : Fault} (hx : Tells files x (.error e) kept text) : Tells files (x >>= f) (.error e) kept text := by
  obtain ⟨log, hx⟩ := hx
  exact ⟨log, fun s hs => bind_error (hx s hs) f⟩

theorem andThen {o : Except Fault α} {g : α → Except Fault β} (hx : Tells files x o [] silent)
    (hf : ∀ a, o = .ok a → Tells files (f a) (g a) [] silent) : Tells files (x >>= f) (o >>= g) [] silent := by
  cases o with
  | error e => exact hx.stop
  | ok a => exact hx.next (hf a rfl)

theorem forM {f : α → Act Unit} : ∀ {xs : List α}, (∀ x ∈ xs, Tells files (f x) (.ok ()) [] silent) →
    Tells files (forM xs f) (.ok ()) [] silent
  | [], _ => tells_pure ()
  | x :: xs, h => by
    obtain ⟨hx, hxs⟩ := List.forall_mem_cons.1 h
    rw [List.forM_cons]
    exact hx.next (.forM hxs)

theorem ofFiles {g : Tree → Act β} (h : Tells files (g files) r kept text) :
    Tells files (get >>= fun s => g s.files) r kept text := by
  obtain ⟨log, h⟩ := h
  refine ⟨log, fun s hs => ?_⟩
  rw [bind_ok (x := get) (a := s) (t := s) rfl, hs]
  exact h s hs

end Tells

end Act

theorem outcome_forM_logInfo (f : String → String) : ∀ xs : List String, (xs.forM fun x => logInfo (f x)).outcome = .ok ()
  | [] => rfl
  | _ :: xs => Traced.outcome_bind_eq_ok_iff.2 ⟨(), rfl, outcome_forM_logInfo f xs⟩

namespace Runner

/-- A script that is not run is kept on record. -/
theorem tells_run (files : Tree) {r : Runner} (hr : r.simulating = true) (name script : String) :
    Act.Tells files (r.run name script) (.ok ()) [⟨name, Script.commandLines script, true⟩] Act.silent := by
  have hcommands (commands : List String) : (r.logCommands name commands).outcome = .ok () :=
    Traced.outcome_bind_eq_ok_iff.2 ⟨(), rfl, outcome_forM_logInfo _ commands⟩
  rw [run, if_pos hr, hr]
  exact (Act.tells_remember _).bind (f := fun _ => Act.ofLogged _) (Act.tells_ofLogged_ok (hcommands _))

end Runner

namespace CommandLine

open Act (Tells silent)

variable {files : Tree} {a : Arguments}

/-! ## The steps of a simulation -/

def loadFound (path : Path) (found : Files.Found) : Act Value :=
  match found, found.refusal? with
  | .file _ file, _ => do
    let text ← textOf file.bytes
    Act.debug ("Loaded layout file " ++ path.text)
    parseText text (path.extension == ".json")
  | _, some reason => Act.fail (.unreadable path.text (reason ++ ": " ++ textLiteral path.text))
  | _, none => Act.fail (.misuse .nullCharacter)

theorem load_eq {source : String} (h : source ≠ "-") (input : String) :
    load source input = get >>= fun s => loadFound (Path.ofString source) (s.files.find (Path.ofString source)) := by
  rw [load, if_neg h]
  rfl

def outcomeAt (path : Path) (found : Files.Found) : Except Fault Value :=
  match found, found.refusal? with
  | .file _ file, _ => textOf file.bytes >>= fun text => parseText text (path.extension == ".json")
  | _, some reason => .error (.unreadable path.text (reason ++ ": " ++ textLiteral path.text))
  | _, none => .error (.misuse .nullCharacter)

def loaded (files : Tree) (source input : String) : Except Fault Value :=
  if source = "-" then parseText input false else outcomeAt (Path.ofString source) (files.find (Path.ofString source))

theorem tells_loadFound (files : Tree) (path : Path) (found : Files.Found) :
    Tells files (loadFound path found) (outcomeAt path found) [] silent := by
  cases found with
  | file p file =>
    refine (Act.tells_liftM (textOf file.bytes)).andThen fun text _ => ?_
    exact (Act.tells_debug _).next (Act.tells_liftM _)
  | _ => exact Act.tells_fail _

theorem tells_load (files : Tree) (source input : String) :
    Tells files (load source input) (loaded files source input) [] silent := by
  by_cases h : source = "-"
  · rw [load, loaded, if_pos h, if_pos h]
    exact (Act.tells_debug _).next (Act.tells_liftM _)
  · have hfound := tells_loadFound files (Path.ofString source) (files.find (Path.ofString source))
    rw [load_eq h, loaded, if_neg h]
    exact Tells.ofFiles (g := fun t => loadFound (Path.ofString source) (t.find (Path.ofString source))) hfound

theorem tells_prepare (files : Tree) (a : Arguments) (input : String) : ∃ r, Tells files (prepare a input) r [] silent :=
  ⟨_, (tells_load files a.layout input).andThen fun tree _ => Act.tells_ofLogged (compile tree a.root)⟩

theorem tells_createDirectory (files : Tree) (label : String) (path : Path) :
    Tells files (createDirectory true label path) (.ok ()) [] silent := Act.tells_info _

def delivered (c : Compiled) (a : Arguments) : Except Fault Unit :=
  match a.outputDirectory.filter (· != "") with
  | some _ => (outputs c a).outcome >>= fun _ => .ok ()
  | none => .ok ()

theorem tells_deliver (files : Tree) (c : Compiled) (hs : a.simulate = true) :
    Tells files (deliver c a) (delivered c a) [] silent := by
  cases hd : a.outputDirectory.filter (· != "") with
  | none =>
    rw [deliver, delivered, hd]
    exact Act.tells_pure ()
  | some directory =>
    rw [deliver, delivered, hd]
    dsimp only
    unfold writeOutputs
    rw [hs]
    refine (tells_createDirectory files _ _).next ?_
    refine (Act.tells_ofLogged (outputs c a)).andThen fun files _ => ?_
    exact .forM fun e _ => Act.tells_info _

theorem delivered_of_deliver {c : Compiled} {s : Session} (h : (deliver c a s).1 = .ok ()) : delivered c a = .ok () := by
  cases hd : a.outputDirectory.filter (· != "") with
  | none => rw [delivered, hd]
  | some directory =>
    rw [deliver, hd] at h
    rw [delivered, hd]
    cases hfiles : (outputs c a).outcome with
    | ok files => rfl
    | error e =>
      obtain ⟨_, t, -, h⟩ := Act.exists_of_bind_ok h
      obtain ⟨files, u, hlogged, -⟩ := Act.exists_of_bind_ok h
      exact absurd (hfiles.symm.trans (congrArg Prod.fst hlogged)) (by simp)

def wanted (asked : Bool) (table : Except Fault String) : Except Fault Unit :=
  if asked then table >>= fun _ => .ok () else .ok ()

/-- The outcome of writing the tables of the target system, as far as it does not hang on the files. -/
def tabled (c : Compiled) (a : Arguments) : Except Fault Unit := do
  let host ← HostConfig.ofFacts c.facts
  wanted a.generateFstab host.fstab.outcome
  wanted (a.generateCrypttab && !host.containers.isEmpty) host.crypttab

theorem tells_writeTable (files : Tree) (path : Path) (content : String) :
    Tells files (writeTable true path content) (.ok ()) [] silent := by
  refine (tells_createDirectory files _ _).next ?_
  refine (Act.tells_info _).next ?_
  exact .forM fun l _ => Act.tells_info _

theorem writeTables_eq (c : Compiled) (a : Arguments) : writeTables c a =
    (liftM (HostConfig.ofFacts c.facts) : Act HostConfig) >>= fun host =>
      (if a.generateFstab then
        Act.ofLogged host.fstab >>= writeTable a.simulate (((Path.ofString a.root).child "etc").child "fstab")
      else pure ()) >>= fun _ =>
        if a.generateCrypttab && !host.containers.isEmpty then
          liftM host.crypttab >>= writeTable a.simulate (((Path.ofString a.root).child "etc").child "crypttab")
        else pure () := by
  unfold writeTables
  refine bind_congr fun host => ?_
  dsimp only
  split <;> simp only [bind_assoc, pure_bind]

theorem tells_writeTables (files : Tree) (c : Compiled) (hs : a.simulate = true) :
    Tells files (writeTables c a) (tabled c a) [] silent := by
  have htable {x : Act String} {table : Except Fault String} (hx : Tells files x table [] silent) (asked : Bool)
      (path : Path) :
      Tells files (if asked then x >>= writeTable true path else pure ()) (wanted asked table) [] silent := by
    cases asked with
    | true => exact hx.andThen fun _ _ => tells_writeTable files _ _
    | false => exact Act.tells_pure ()
  rw [writeTables_eq, tabled, hs]
  refine (Act.tells_liftM (HostConfig.ofFacts c.facts)).andThen fun host _ => ?_
  exact (htable (Act.tells_ofLogged host.fstab) _ _).andThen fun _ _ => htable (Act.tells_liftM host.crypttab) _ _

theorem tabled_of_writeTables {c : Compiled} {s : Session} (h : (writeTables c a s).1 = .ok ()) : tabled c a = .ok () := by
  have hwanted (x : Act String) (table : Except Fault String) (hx : ∀ s v t, x s = (.ok v, t) → table = .ok v) {asked : Bool}
      {f : String → Act Unit} {s : Session} (h : ((if asked then x >>= f else pure ()) s).1 = .ok ()) :
      wanted asked table = .ok () := by
    cases asked with
    | false => rfl
    | true =>
      obtain ⟨v, _, hv, -⟩ := Act.exists_of_bind_ok h
      rw [wanted, if_pos rfl, hx _ _ _ hv]
      rfl
  rw [writeTables_eq] at h
  obtain ⟨host, t, hhost, h⟩ := Act.exists_of_bind_ok h
  obtain ⟨_, u, hfstab, hcrypttab⟩ := Act.exists_of_bind_ok h
  have hgrouped : HostConfig.ofFacts c.facts = .ok host := congrArg Prod.fst hhost
  have hfirst : wanted a.generateFstab host.fstab.outcome = .ok () :=
    hwanted (Act.ofLogged host.fstab) _ (fun _ _ _ hv => congrArg Prod.fst hv) (congrArg Prod.fst hfstab)
  rw [tabled, hgrouped, except_ok_bind, hfirst, except_ok_bind]
  exact hwanted (liftM host.crypttab) _ (fun _ _ _ hv => congrArg Prod.fst hv) hcrypttab

def rehearsed (c : Compiled) : List ScriptRecord :=
  [⟨"create", Script.commandLines c.createScript, true⟩, ⟨"mount", Script.commandLines c.mountScript, true⟩]

theorem tells_applyLayout (files : Tree) (env : Environment) (c : Compiled) (hs : a.simulate = true) :
    Tells files (applyLayout env c a) (tabled c a) (rehearsed c) silent := by
  have hcheck : (Prerequisite.check env true c.tools).outcome = .ok () :=
    Traced.outcome_bind_eq_ok_iff.2 ⟨(), rfl, outcome_forM_logInfo _ c.tools⟩
  have hcreate := Runner.tells_run files (r := runnerOf a) hs "create" c.createScript
  have hmount := Runner.tells_run files (r := runnerOf a) hs "mount" c.mountScript
  unfold applyLayout
  rw [hs]
  have hmounted := hmount.bind (f := fun _ => writeTables c a) (tells_writeTables files c hs)
  have hcreated := hcreate.bind (f := fun _ => (runnerOf a).run "mount" c.mountScript >>= fun _ => writeTables c a) hmounted
  exact (Act.tells_ofLogged_ok hcheck).next hcreated

/-! ## The run -/

def expose (c : Compiled) (a : Arguments) : Act Unit :=
  match a.outputDirectory.filter (· != "") with
  | some directory => writeOutputs c a (Path.ofString directory)
  | none => do Act.print (← artifact c a.mode)

def opening : Act Unit := Act.info "Running in simulation mode - NO CHANGES WILL BE MADE"

theorem execute_rehearsing {env : Environment} {input : String} (ha : a.apply = true) (hs : a.simulate = true) :
    execute env a input = opening >>= fun _ => prepare a input >>= fun c => deliver c a >>= fun _ =>
      applyLayout env c a >>= fun _ => get >>= fun s => Act.print (summary (runnerOf a) s.scripts) := by
  simp only [execute, opening, prepare, deliver, ha, hs, if_true, Bool.not_true, Bool.false_eq_true, if_false, bind_assoc]
  refine bind_congr fun _ => bind_congr fun tree => bind_congr fun c => ?_
  cases a.outputDirectory.filter (· != "") <;> rfl

theorem execute_exposing {env : Environment} {input : String} (ha : a.apply = false) (hs : a.simulate = true) :
    execute env a input = opening >>= fun _ => prepare a input >>= fun c => expose c a := by
  simp only [execute, opening, prepare, expose, ha, hs, if_true, Bool.not_false, Bool.false_eq_true, if_false, bind_assoc]
  refine bind_congr fun _ => bind_congr fun tree => bind_congr fun c => ?_
  cases a.outputDirectory.filter (· != "") <;> simp only [bind_pure_unit]

theorem tells_expose (files : Tree) (c : Compiled) (hs : a.simulate = true) :
    ∃ r text, Tells files (expose c a) r [] text ∧ ∀ f, r = .error f → text = silent := by
  cases hd : a.outputDirectory.filter (· != "") with
  | some directory =>
    have hdeliver := tells_deliver files c hs
    rw [deliver, hd] at hdeliver
    rw [expose, hd]
    exact ⟨_, _, hdeliver, fun _ _ => rfl⟩
  | none =>
    rw [expose, hd]
    cases hmade : artifact c a.mode with
    | error f => exact ⟨_, _, (Act.tells_liftM (.error f)).stop, fun _ _ => rfl⟩
    | ok text =>
      exact ⟨.ok (), fun _ => text, (Act.tells_liftM (.ok text)).next (Act.tells_print _), fun _ hf => by cases hf⟩

/-- **How a simulation ends**: by its outcome, the scripts it keeps on record and the text it prints. -/
inductive Rehearsal (files : Tree) (a : Arguments) (input : String) :
    Except Fault Unit → List ScriptRecord → (List ScriptRecord → String) → Prop
  /-- There is no layout, or it does not compile. -/
  | refused {f : Fault} (hprep : Tells files (prepare a input) (.error f) [] silent) :
      Rehearsal files a input (.error f) [] silent
  /-- The layout is not applied; its artifacts are listed or printed, if they can be made. -/
  | exposed {c : Compiled} {r : Except Fault Unit} {text : List ScriptRecord → String}
      (hprep : Tells files (prepare a input) (.ok c) [] silent) (ha : a.apply = false)
      (hr : ∀ f, r = .error f → text = silent) : Rehearsal files a input r [] text
  /-- An artifact or a table cannot be made. -/
  | stopped {c : Compiled} {f : Fault} {kept : List ScriptRecord} (hprep : Tells files (prepare a input) (.ok c) [] silent)
      (ha : a.apply = true) (hf : (delivered c a >>= fun _ => tabled c a) = .error f) :
      Rehearsal files a input (.error f) kept silent
  /-- The commands of both scripts are reported. -/
  | reported {c : Compiled} (hprep : Tells files (prepare a input) (.ok c) [] silent) (ha : a.apply = true)
      (hmade : (delivered c a >>= fun _ => tabled c a) = .ok ()) :
      Rehearsal files a input (.ok ()) (rehearsed c) (fun before => summary (runnerOf a) (before ++ rehearsed c))

/-- **A simulation has one of these ends**, and it is the same on every machine. -/
theorem rehearsal_of_execute (files : Tree) (env : Environment) (input : String) (hs : a.simulate = true) :
    ∃ r kept text, Rehearsal files a input r kept text ∧ Tells files (execute env a input) r kept text := by
  have hopening : Tells files opening (.ok ()) [] silent := Act.tells_info _
  obtain ⟨r, hprep⟩ := tells_prepare files a input
  cases ha : a.apply with
  | false =>
    rw [execute_exposing ha hs]
    cases r with
    | error f => exact ⟨_, _, _, .refused hprep, hopening.next hprep.stop⟩
    | ok c =>
      obtain ⟨r, text, hexpose, hr⟩ := tells_expose files c hs
      exact ⟨_, _, _, .exposed hprep ha hr, hopening.next (hprep.next hexpose)⟩
  | true =>
    rw [execute_rehearsing ha hs]
    cases r with
    | error f => exact ⟨_, _, _, .refused hprep, hopening.next hprep.stop⟩
    | ok c =>
      have hdeliver := tells_deliver files c hs
      have happly := tells_applyLayout files env c hs
      cases hd : delivered c a with
      | error f =>
        rw [hd] at hdeliver
        exact ⟨_, _, _, .stopped hprep ha (f := f) (by rw [hd]; rfl), hopening.next (hprep.next hdeliver.stop)⟩
      | ok _ =>
        rw [hd] at hdeliver
        cases ht : tabled c a with
        | error f =>
          rw [ht] at happly
          refine ⟨.error f, rehearsed c, silent, .stopped hprep ha (by rw [hd, except_ok_bind, ht]), ?_⟩
          exact hopening.next (hprep.next (hdeliver.next happly.stop))
        | ok _ =>
          rw [ht] at happly
          refine ⟨_, _, _, .reported hprep ha (by rw [hd, except_ok_bind, ht]), ?_⟩
          exact hopening.next (hprep.next (hdeliver.next (happly.bind (Act.tells_printOf (summary (runnerOf a))))))

section

variable {env : Environment} {input : String} {s t u : Session} {files : Tree}

theorem execute_simulated (env env' : Environment) (input : String) (hs : a.simulate = true) :
    execute env a input = execute env' a input := by
  have hcheck (packages : List String) : Prerequisite.check env true packages = Prerequisite.check env' true packages := rfl
  unfold execute applyLayout
  simp only [hs, hcheck]

theorem isReportable_rehearsed (c : Compiled) : Report.IsReportable (rehearsed c) := by
  have hcreate : Report.entries (Text.upperCase "create" ++ " SCRIPT:") = [] := by decide +kernel
  have hmount : Report.entries (Text.upperCase "mount" ++ " SCRIPT:") = [] := by decide +kernel
  intro script hscript
  obtain rfl | rfl := List.mem_pair.1 hscript
  · exact ⟨hcreate, fun _ => Script.newline_notMem_commandLines⟩
  · exact ⟨hmount, fun _ => Script.newline_notMem_commandLines⟩

theorem Rehearsal.text_of_error {r : Except Fault Unit} {kept : List ScriptRecord} {text : List ScriptRecord → String}
    (h : Rehearsal files a input r kept text) (hr : r ≠ .ok ()) : text = silent := by
  cases h with
  | refused | stopped => rfl
  | exposed _ _ htext =>
    cases r with
    | error f => exact htext f rfl
    | ok _ => exact absurd rfl hr
  | reported => exact absurd rfl hr

/-- A layout that is applied is reported if all that is to be written can be made. -/
theorem Rehearsal.ok_iff {r : Except Fault Unit} {kept : List ScriptRecord} {text : List ScriptRecord → String}
    (h : Rehearsal s.files a input r kept text) (ha : a.apply = true) {c : Compiled} (hc : (prepare a input s).1 = .ok c) :
    r = .ok () ↔ (delivered c a >>= fun _ => tabled c a) = .ok () := by
  cases h with
  | refused hprep => exact absurd (hprep.outcome.symm.trans hc) (by simp)
  | exposed _ ha' => exact absurd (ha.symm.trans ha') (by simp)
  | stopped hprep _ hf =>
    obtain rfl := Except.ok.inj (hprep.outcome.symm.trans hc)
    rw [hf]
  | reported hprep _ hmade =>
    obtain rfl := Except.ok.inj (hprep.outcome.symm.trans hc)
    exact iff_of_true rfl hmade

theorem Rehearsal.text_of_ok {kept : List ScriptRecord} {text : List ScriptRecord → String}
    (h : Rehearsal s.files a input (.ok ()) kept text) (ha : a.apply = true) {c : Compiled}
    (hc : (prepare a input s).1 = .ok c) : text = fun before => summary (runnerOf a) (before ++ rehearsed c) := by
  cases h with
  | exposed _ ha' => exact absurd (ha.symm.trans ha') (by simp)
  | reported hprep => rw [Except.ok.inj (hprep.outcome.symm.trans hc)]

theorem Course.eq_calls {runs : List (List String)} {r : Except Fault Unit} (h : Course env a input s runs r t)
    (hr : r = .ok ()) {c : Compiled} (hc : (prepare a input s).1 = .ok c) : runs = calls c := by
  cases h with
  | refused | stopped => cases hr
  | created _ _ hcreate => exact absurd (Runner.outcome_eq_ok_iff.1 hr) hcreate
  | unmounted => cases hr
  | mounted _ _ _ hmount => exact absurd (Runner.outcome_eq_ok_iff.1 hr) hmount
  | applied hprep => rw [Except.ok.inj (hprep.symm.trans hc)]

theorem delivered_simulate (c : Compiled) (a : Arguments) (b : Bool) :
    delivered c { a with simulate := b } = delivered c a := by
  unfold delivered outputs
  rfl

theorem tabled_simulate (c : Compiled) (a : Arguments) (b : Bool) : tabled c { a with simulate := b } = tabled c a := by
  unfold tabled
  rfl

theorem made_of_succeed {c : Compiled} (h : Act.Succeed (steps env c a) s) :
    (delivered c a >>= fun _ => tabled c a) = .ok () := by
  obtain ⟨hdeliver, -, -, -, htables, -⟩ := h
  rw [delivered_of_deliver hdeliver, except_ok_bind, tabled_of_writeTables htables]

/-- **What a simulation is**: its exit code and the session that it leaves. -/
structure Simulated (a : Arguments) (argv : List String) (input : String) (s : Session) (code : Nat) (t : Session) :
    Prop where
  files : t.files = s.files
  started : t.started = s.started
  /-- It ends in the same way on every machine, however scripts would end there. -/
  blind : ∀ env results, run env argv input { s with results := results } = (code, { t with results := results })
  /-- A layout that compiles is applied well if all that is to be written can be made. -/
  succeeded : a.apply = true → ∀ c, (prepare a input s).1 = .ok c →
    (code = 0 ↔ (delivered c a >>= fun _ => tabled c a) = .ok ())
  /-- If it ends well, it prints a report of the commands of both scripts. -/
  reported : a.apply = true → ∀ c, (prepare a input s).1 = .ok c → code = 0 → ∃ text, t.output = s.output ++ text ∧
    (s.scripts = [] → Report.entries text =
      Report.numbering 1 (Script.commandLines c.createScript ++ Script.commandLines c.mountScript))
  /-- If it fails, it prints nothing. -/
  failed : code ≠ 0 → t.output = s.output
  /-- In earnest, those scripts are run, both unless something fails; and what ends well in earnest does so here. -/
  earnest : a.apply = true → ∀ c, (prepare a input s).1 = .ok c → ∀ env argv u,
    Arguments.parse argv = .ok { a with simulate := false } → u.files = s.files →
      ∃ runs, (run env argv input u).2.started = u.started ++ runs ∧ runs <+: calls c ∧
        ((run env argv input u).1 = 0 → runs = calls c ∧ code = 0)

/-- **A simulation has no effect**, and does not look at the machine. -/
theorem simulation_has_no_effect (env : Environment) (argv : List String) (input : String) (s : Session) (a : Arguments)
    (hparse : Arguments.parse argv = .ok a) (hs : a.simulate = true) :
    Simulated a argv input s (run env argv input s).1 (run env argv input s).2 := by
  obtain ⟨r, kept, text, hend, log, htells⟩ := rehearsal_of_execute s.files env input hs
  have hrun (env : Environment) (s : Session) : run env argv input s = runWith env a input s := by rw [run, hparse]
  have hblind (env' : Environment) (results : List RunResult) : runWith env' a input { s with results := results } =
      ((runWith env a input s).1, { (runWith env a input s).2 with results := results }) := by
    unfold runWith
    rw [execute_simulated env' env input hs, htells s rfl, htells { s with results := results } rfl]
    cases r <;> rfl
  obtain ⟨final, hwith⟩ := runWith_eq env a input s
  rw [htells s rfl] at hwith
  simp only [← hrun] at hblind hwith
  rw [hwith] at hblind ⊢
  refine { files := rfl, started := rfl, blind := hblind, succeeded := ?succeeded, reported := ?reported, failed := ?failed,
           earnest := ?earnest }
  case succeeded =>
    intro ha c hc
    rw [codeOf_eq_zero_iff, hend.ok_iff ha hc]
  case reported =>
    intro ha c hc hcode
    obtain rfl := codeOf_eq_zero_iff.1 hcode
    refine ⟨_, rfl, fun hscripts => ?_⟩
    rw [hend.text_of_ok ha hc, hscripts]
    dsimp only
    rw [List.nil_append, Report.entries_summary (r := runnerOf a) hs (isReportable_rehearsed c), rehearsed,
      List.flatMap_cons, List.flatMap_singleton]
  case failed =>
    intro hcode
    have hr : r ≠ .ok () := fun h => hcode (codeOf_eq_zero_iff.2 h)
    rw [hend.text_of_error hr]
    exact String.append_empty
  case earnest =>
    intro ha c hc env' argv' u hparse' hu
    obtain ⟨runs, hcourse⟩ := course_of_execute env' input u (a := { a with simulate := false }) ha rfl
    obtain ⟨final', hwith'⟩ := runWith_eq env' { a with simulate := false } input u
    obtain ⟨F, hran⟩ := hcourse.ran
    -- reading the layout depends on the files alone, so both runs prepare the same
    have hprep : (prepare { a with simulate := false } input u).1 = .ok c := by
      obtain ⟨o, ho⟩ := tells_prepare s.files a input
      have ho' := hu ▸ ho
      exact ho'.outcome.trans (ho.outcome.symm.trans hc)
    rw [run, hparse']
    dsimp only
    rw [hwith']
    refine ⟨runs, hran.started, hcourse.scripts hprep, fun hcode => ?_⟩
    have hok := codeOf_eq_zero_iff.1 hcode
    obtain ⟨c', hc', hsteps⟩ := (execute_eq_ok_iff (a := { a with simulate := false }) ha rfl).1 hok
    obtain rfl := Except.ok.inj (hc'.symm.trans hprep)
    -- what the run in earnest has written could be made, and that is all that can stop a simulation
    have hmade := made_of_succeed hsteps
    rw [delivered_simulate, tabled_simulate] at hmade
    exact ⟨hcourse.eq_calls hok hprep, codeOf_eq_zero_iff.2 ((hend.ok_iff ha hc).2 hmade)⟩

end

/-- A simulation succeeds for a user who may do nothing, on a machine where the scripts would fail. -/
theorem simulation_has_no_effect_of_user :
    let text := "\x7b\"nodev\": \x7b\"/\": \x7b\"type\": \"nodev\", \"fsType\": \"tmpfs\"\x7d\x7d\x7d"
    let s : Session := { files := { files := [(⟨"", ["disks.json"]⟩, ⟨text.toUTF8, false⟩)] }, results := [.exited 3] }
    let a : Arguments := { layout := "disks.json", apply := true, simulate := true }
    Arguments.parse ["--apply", "--simulate", "disks.json"] = .ok a ∧ a.simulate = true ∧
      (run { user := 1000 } ["--apply", "--simulate", "disks.json"] "" s).1 = 0 ∧
      (run { user := 1000 } ["--apply", "--simulate", "disks.json"] "" s).2.started = [] ∧
      ∃ c, (prepare a "" s).1 = .ok c ∧
        Report.entries (run { user := 1000 } ["--apply", "--simulate", "disks.json"] "" s).2.output =
          Report.numbering 1 (Script.commandLines c.createScript ++ Script.commandLines c.mountScript) := by
  intro text s a
  have hparse : Arguments.parse ["--apply", "--simulate", "disks.json"] = .ok a := by decide +kernel
  have hpath : Path.ofString "disks.json" = ⟨"", ["disks.json"]⟩ := by decide +kernel
  have hfind (f : Files.File) : ({ files := [(⟨"", ["disks.json"]⟩, f)] } : Tree).find (Path.ofString "disks.json") =
      .file ⟨"", ["disks.json"]⟩ f := by
    rw [hpath, Tree.find, if_neg (by decide +kernel), if_neg (by decide +kernel), Tree.walk, if_neg (by decide +kernel)]
    rfl
  have hcompiles : ((Json.parse (String.ofList (withLineFeeds text.toList))).toOption.any (fun tree =>
      (compile tree "/mnt").outcome.toOption.any (fun c =>
        (delivered c a >>= fun _ => tabled c a).toOption.isSome))) = true := by
    decide +kernel
  obtain ⟨tree, hread, hcompiles⟩ := (Option.any_eq_true _ _).1 hcompiles
  obtain ⟨c, hc, hmade⟩ := (Option.any_eq_true _ _).1 hcompiles
  obtain ⟨_, hmade⟩ := Option.isSome_iff_exists.1 hmade
  obtain ⟨t, hload⟩ := load_json (s := s) (by decide) (hfind _) (by decide +kernel) (eq_ok_of_toOption hread) ""
  have hprep : (prepare a "" s).1 = .ok c := by
    rw [prepare, Act.bind_ok hload]
    exact eq_ok_of_toOption hc
  have h := simulation_has_no_effect { user := 1000 } ["--apply", "--simulate", "disks.json"] "" s a hparse rfl
  have hcode := (h.succeeded rfl c hprep).2 (eq_ok_of_toOption hmade)
  obtain ⟨printed, houtput, hentries⟩ := h.reported rfl c hprep hcode
  refine ⟨hparse, rfl, hcode, h.started, c, hprep, ?_⟩
  rw [houtput, ← hentries rfl]
  exact congrArg Report.entries String.empty_append

end CommandLine

end Provision
