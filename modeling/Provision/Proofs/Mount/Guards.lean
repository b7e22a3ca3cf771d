import Provision.Compile
import Provision.Proofs.Shell.Execution
/-!
# The guards of the mount script

Every activation and every mount asks first whether there is anything left to do (`Test`).  Where what the question is
about is named by single words, the question and the command are about the same thing, so the command makes the answer
true (`Activation.settles`, `Mounting.settles`).  Pieces of a script that settle their tests settle them together: once
all of them hold, running the pieces again makes nothing (`Settles.again`).
-/
namespace Provision

open Shell (Clause IsGuarded Machine Reads Run bareWord clausesFrom)

/-- A question that the mount script asks. -/
inductive Test where
  | mounted (source target : String)
  | opened (container : String)
  | imported (pool : String)
  | present (file : String)
  deriving DecidableEq, Repr

def Test.words : Test → List String
  | mounted source target => ["findmnt", source, target]
  | opened container => ["cryptsetup", "status", container]
  | imported pool => ["zpool", "list", pool]
  | present file => ["[", "-e", file, "]"]

/-- Whether a command mounts a filesystem or makes a device appear that the script asks for. -/
def isAction : List String → Bool
  | "mount" :: _ | "cryptsetup" :: "luksOpen" :: _ | "zpool" :: "import" :: _ | "mdadm" :: "--assemble" :: _ => true
  | _ => false

def activatesGroup : List String → Bool
  | "vgchange" :: "-a" :: "y" :: _ => true
  | _ => false

/-- The test that a command makes true; one that assembles arrays makes all of them appear. -/
inductive Establishes (arrays : List String) : List String → Test → Prop
  | mount (source target : String) (options : List String) :
    Establishes arrays ("mount" :: source :: target :: options) (.mounted source target)
  | unlock (device container : String) (options : List String) :
    Establishes arrays ("cryptsetup" :: "luksOpen" :: device :: container :: options) (.opened container)
  | importPool (pool : String) : Establishes arrays ["zpool", "import", pool] (.imported pool)
  | assemble {file : String} (h : file ∈ arrays) : Establishes arrays ["mdadm", "--assemble", "--scan"] (.present file)

variable {σ : Type}

/-- **What is assumed of the programs that a mount script calls**, where `holds` says which tests are true of a state.  A
question is answered by what is true, and leaves that as it is.  A command that mounts, opens, imports or assembles makes its
test true when it succeeds, and undoes no other; nor does one that activates a volume group. -/
structure Shell.Machine.Faithful (M : Machine σ) (holds : Test → σ → Bool) (arrays : List String) : Prop where
  answers : ∀ (t : Test) x, (M.call t.words x).1 = holds t x
  asking : ∀ (t u : Test) x, holds u x = true → holds u (M.call t.words x).2 = true
  establishes : ∀ {ws t} x, Establishes arrays ws t → (M.call ws x).1 = true → holds t (M.call ws x).2 = true
  keeps : ∀ {ws} x, isAction ws = true ∨ activatesGroup ws = true → (M.call ws x).1 = true →
    ∀ u, holds u x = true → holds u (M.call ws x).2 = true

/-- **Clauses after which tests hold**, and which do nothing where all of them hold already. -/
structure Settles (M : Machine σ) (holds : Test → σ → Bool) (cs : List Clause) (ts : List Test) : Prop where
  runs : ∀ {r : Run σ}, r.Ready → ∃ r', Run.steps M cs r = some r' ∧ (r'.stopped = false → r'.Ready ∧
    (∀ u, holds u r.world = true → holds u r'.world = true) ∧ ∀ t ∈ ts, holds t r'.world = true)
  again : ∀ {r r' : Run σ}, r.Ready → (∀ t ∈ ts, holds t r.world = true) → Run.steps M cs r = some r' →
    ∃ calls, r'.calls = r.calls ++ calls ∧ ∀ ws ∈ calls, isAction ws = false

namespace Settles

variable {M : Machine σ} {holds : Test → σ → Bool} {bs cs : List Clause} {ts us : List Test}

theorem empty : Settles M holds [] [] where
  runs {r} hr := ⟨r, rfl, fun _ => ⟨hr, fun _ hu => hu, fun _ ht => by cases ht⟩⟩
  again {r _} _ _ h := ⟨[], by rw [List.append_nil, Option.some.inj h], fun _ hws => by cases hws⟩

theorem append (hb : Settles M holds bs ts) (hc : Settles M holds cs us) : Settles M holds (bs ++ cs) (ts ++ us) where
  runs {r} hr := by
    obtain ⟨r₁, hr₁, hb⟩ := hb.runs hr
    rw [Run.steps_append, hr₁, Option.bind_some]
    cases hstopped : r₁.stopped with
    | true => exact ⟨r₁, Run.steps_of_stopped hstopped cs, fun h => by cases hstopped.symm.trans h⟩
    | false =>
      obtain ⟨hready, hkept, hts⟩ := hb hstopped
      obtain ⟨r₂, hr₂, hc⟩ := hc.runs hready
      refine ⟨r₂, hr₂, fun h => ?_⟩
      obtain ⟨hready', hkept', hus⟩ := hc h
      exact ⟨hready', fun u hu => hkept' u (hkept u hu),
        List.forall_mem_append.2 ⟨fun t ht => hkept' t (hts t ht), hus⟩⟩
  again {r r'} hr hall h := by
    obtain ⟨hts, hus⟩ := List.forall_mem_append.1 hall
    obtain ⟨r₁, hr₁, hruns⟩ := hb.runs hr
    obtain ⟨calls, hcalls, hidle⟩ := hb.again hr hts hr₁
    rw [Run.steps_append, hr₁, Option.bind_some] at h
    cases hstopped : r₁.stopped with
    | true =>
      rw [Run.steps_of_stopped hstopped] at h
      exact ⟨calls, Option.some.inj h ▸ hcalls, hidle⟩
    | false =>
      obtain ⟨hready, hkept, -⟩ := hruns hstopped
      obtain ⟨calls', hcalls', hidle'⟩ := hc.again hready (fun t ht => hkept t (hus t ht)) h
      exact ⟨calls ++ calls', by rw [hcalls', hcalls, List.append_assoc], List.forall_mem_append.2 ⟨hidle, hidle'⟩⟩

theorem flatMap {α : Type} {read : α → List Clause} {tests : α → List Test} : ∀ {xs : List α},
    (∀ x ∈ xs, Settles M holds (read x) (tests x)) → Settles M holds (xs.flatMap read) (xs.flatMap tests)
  | [], _ => empty
  | x :: xs, h => by
    rw [List.flatMap_cons, List.flatMap_cons]
    exact (h x List.mem_cons_self).append (flatMap (fun y hy => h y (List.mem_cons_of_mem _ hy)))

end Settles

theorem isAction_words (t : Test) : isAction t.words = false := by
  cases t <;> rfl

section Faithful

variable {M : Machine σ} {holds : Test → σ → Bool} {arrays : List String} (hM : M.Faithful holds arrays)
include hM

/-- **A command settles the test that guards it**, if it makes that test true. -/
theorem Shell.IsGuarded.settles {t : Test} {action : List String} {cs : List Clause} (h : IsGuarded M t.words action cs)
    (haction : isAction action = true) (ht : Establishes arrays action t) : Settles M holds cs [t] where
  runs {r} hr := by
    cases hanswer : (M.call t.words r.world).1 with
    | true =>
      obtain ⟨r', hr', hready, hworld, -⟩ := h.yes hr hanswer
      have hkept (u : Test) (hu : holds u r.world = true) : holds u r'.world = true := hworld ▸ hM.asking t u _ hu
      refine ⟨r', hr', fun _ => ⟨hready, hkept, ?_⟩⟩
      rw [List.forall_mem_singleton]
      exact hkept t (hM.answers t _ ▸ hanswer)
    | false =>
      obtain ⟨r', hr', hworld, hend⟩ := h.no hr hanswer
      refine ⟨r', hr', fun hstopped => ?_⟩
      split at hend
      · rename_i hsucceeded
        refine ⟨hend, fun u hu => ?_, ?_⟩
        · rw [hworld]
          exact hM.keeps _ (.inl haction) hsucceeded u (hM.asking t u _ hu)
        · rw [List.forall_mem_singleton, hworld]
          exact hM.establishes _ ht hsucceeded
      · cases hstopped.symm.trans hend
  again {r r'} hr hall h' := by
    have hanswer : (M.call t.words r.world).1 = true := (hM.answers t _).trans (hall t (List.mem_singleton.2 rfl))
    obtain ⟨r₁, hr₁, -, -, hcalls⟩ := h.yes hr hanswer
    obtain rfl := Option.some.inj (hr₁.symm.trans h')
    exact ⟨[t.words], hcalls, List.forall_mem_singleton.2 (isAction_words t)⟩

theorem settles_activateGroup (ws : List String) : Settles M holds [{ words := "vgchange" :: "-a" :: "y" :: ws }] [] where
  runs := by
    rintro ⟨world, calls, succeeded, _, _, _, _⟩ ⟨rfl, rfl, rfl, rfl⟩
    refine ⟨_, rfl, fun hrunning => ?_⟩
    have hsucceeded : (M.call ("vgchange" :: "-a" :: "y" :: ws) world).1 = true := by
      simpa [Run.call, Run.isTested] using hrunning
    exact ⟨⟨hrunning, rfl, rfl, rfl⟩, hM.keeps _ (.inr rfl) hsucceeded, fun _ ht => by cases ht⟩
  again := by
    rintro ⟨world, calls, succeeded, _, _, _, _⟩ r' ⟨rfl, rfl, rfl, rfl⟩ _ h
    obtain rfl := Option.some.inj h
    exact ⟨[_], rfl, List.forall_mem_singleton.2 rfl⟩

end Faithful

namespace Value

/-- Whether a value is one word of a command line: it is neither left out nor a list. -/
def isSingle (v : Value) : Bool := v.words == [v.toText]

theorem words_of_isSingle {v : Value} (h : v.isSingle = true) : v.words = [v.toText] := beq_iff_eq.1 h

end Value

namespace Activation

def clauses : Activation → List Clause
  | unlock device name keyFile =>
    [{ words := ["cryptsetup", "status"] ++ name.words, orElse := true }, { words := unlockWords device name keyFile }]
  | assembleArray path => [{ words := ["[", "-e", path, "]"], orElse := true },
      { words := ["mdadm", "--assemble", "--scan"] }]
  | importPool name =>
    [{ words := ["zpool", "list"] ++ name.words, orElse := true }, { words := ["zpool", "import"] ++ name.words }]
  | activateGroup name => [{ words := ["vgchange", "-a", "y"] ++ name.words }]

theorem reads_alternative {v w : String} (vs ws : List String) {between : String}
    (hbetween : between = " >/dev/null 2>/dev/null || " ∨ between = " >/dev/null 2>/dev/null ||\n  ")
    (hv : Shell.isCommand v.toList (Shell.isBare v.toList) = true)
    (hw : Shell.isCommand w.toList (Shell.isBare w.toList) = true) :
    Reads {} (Shell.commandLine (v :: vs) ++ between ++ (Shell.commandLine (w :: ws) ++ "\n"))
      [{ words := v :: vs, orElse := true }, { words := w :: ws }] {} := by
  have hquiet : Reads { words := v :: vs } between [{ words := v :: vs, orElse := true }] {} := by
    rcases hbetween with rfl | rfl
    · exact .of_tokens rfl [.sign '>', bareWord "/dev/null", .sign '>', bareWord "/dev/null", .sign '|', .sign '|']
        (fun _ => rfl) (fun _ => by simp [clausesFrom, bareWord])
    · exact .of_tokens rfl
        [.sign '>', bareWord "/dev/null", .sign '>', bareWord "/dev/null", .sign '|', .sign '|', .sign '\n'] (fun _ => rfl)
        (fun _ => by simp [clausesFrom, bareWord, Clause.ended])
  exact (Reads.commandLine hv hquiet (by rcases hbetween with rfl | rfl <;> rfl)).append (.commandLine_end hw)

theorem reads_script : ∀ a : Activation, Reads {} a.script a.clauses {}
  | unlock device name keyFile => by
    have hall := reads_alternative (["status"] ++ name.words) (unlockWords device name keyFile).tail (.inr rfl)
      (v := "cryptsetup") (w := "cryptsetup") rfl rfl
    rwa [← String.append_assoc] at hall
  | assembleArray path => by
    have htest : Reads {} "[ -e " [] { words := ["[", "-e"] } :=
      .of_tokens rfl [bareWord "[", bareWord "-e"] (fun _ => rfl) (fun _ => by simp +decide [clausesFrom, bareWord])
    have hassemble : Reads { words := ["[", "-e", path] } " ] || mdadm --assemble --scan\n"
      (assembleArray path).clauses {} :=
      .of_tokens rfl [bareWord "]", .sign '|', .sign '|', bareWord "mdadm", bareWord "--assemble", bareWord "--scan",
        .sign '\n']
        (fun _ => rfl) (fun _ => by simp +decide [clausesFrom, bareWord, Clause.ended, Function.comp_def, clauses])
    have hall := htest.append (.quote path hassemble rfl)
    rwa [← String.append_assoc] at hall
  | importPool name => by
    have hall := reads_alternative (["list"] ++ name.words) (["import"] ++ name.words) (.inl rfl) (v := "zpool")
      (w := "zpool") rfl rfl
    rwa [← String.append_assoc] at hall
  | activateGroup name => .commandLine_end rfl

def test? : Activation → Option Test
  | unlock _ name _ => some (.opened name.toText)
  | assembleArray path => some (.present path)
  | importPool name => some (.imported name.toText)
  | activateGroup _ => none

/-- Whether an activation makes the test true that guards it: what it works on is named by single words, and its array
is among those that are assembled. -/
def IsRepeatable (arrays : List String) : Activation → Prop
  | unlock device name _ => device.isSingle = true ∧ name.isSingle = true
  | assembleArray path => path ∈ arrays
  | importPool name => name.isSingle = true
  | activateGroup _ => True

instance (arrays : List String) : ∀ a : Activation, Decidable (a.IsRepeatable arrays)
  | unlock device name _ => inferInstanceAs (Decidable (device.isSingle = true ∧ name.isSingle = true))
  | assembleArray path => inferInstanceAs (Decidable (path ∈ arrays))
  | importPool name => inferInstanceAs (Decidable (name.isSingle = true))
  | activateGroup _ => .isTrue trivial

/-- **An activation settles the test that guards it.** -/
theorem settles {M : Machine σ} {holds : Test → σ → Bool} {arrays : List String} (hM : M.Faithful holds arrays) :
    ∀ {a : Activation}, a.IsRepeatable arrays → Settles M holds a.clauses a.test?.toList
  | unlock device name keyFile, ⟨hdevice, hname⟩ => by
    have hwords : unlockWords device name keyFile = "cryptsetup" :: "luksOpen" :: device.toText :: name.toText ::
        (if keyFile.isGiven then ["--key-file", keyFile.toText] else []) := by
      rw [unlockWords, Value.words_of_isSingle hdevice, Value.words_of_isSingle hname]
      rfl
    have hguarded := Shell.isGuarded_alternative M (v := "cryptsetup") (w := "cryptsetup") ["status", name.toText]
      ("luksOpen" :: device.toText :: name.toText :: (if keyFile.isGiven then ["--key-file", keyFile.toText] else []))
      (by decide) (by decide)
    rw [clauses, hwords, Value.words_of_isSingle hname]
    exact Shell.IsGuarded.settles hM (t := .opened name.toText) hguarded rfl (.unlock _ _ _)
  | assembleArray path, hpath =>
    Shell.IsGuarded.settles hM (t := .present path)
      (Shell.isGuarded_alternative M ["-e", path, "]"] ["--assemble", "--scan"] (by decide) (by decide)) rfl
      (.assemble hpath)
  | importPool name, hname => by
    rw [clauses, Value.words_of_isSingle hname]
    exact Shell.IsGuarded.settles hM (t := .imported name.toText)
      (Shell.isGuarded_alternative M ["list", name.toText] ["import", name.toText] (by decide) (by decide)) rfl
      (.importPool _)
  | activateGroup name, _ => settles_activateGroup hM name.words

end Activation

namespace Mounting

/-- The clauses of a mount.  The question of a swap device goes through a pipe, which is not read. -/
def clauses : Mounting → List Clause
  | filesystem source root mountpoint options fsType =>
    [{ opens := ["if", "!"], words := ["findmnt", source.toText, targetPath root mountpoint] }, { opens := ["then"] },
      { words := (filesystem source root mountpoint options fsType).words }, { opens := ["fi"] }]
  | swap _ => []

def test? : Mounting → Option Test
  | filesystem source root mountpoint _ _ => some (.mounted source.toText (targetPath root mountpoint))
  | swap _ => none

/-- Whether a mount makes the test true that guards it: it mounts a filesystem that is named by a single word. -/
def IsRepeatable : Mounting → Prop
  | filesystem source .. => source.isSingle = true
  | swap _ => False

theorem IsRepeatable.clauses_ne_nil : ∀ {m : Mounting}, m.IsRepeatable → m.clauses ≠ []
  | filesystem .., _ => List.cons_ne_nil _ _

theorem reads_question (source target : String) :
    Reads {} ("if ! " ++ ("findmnt " ++ (Shell.quote source ++ (" " ++ (Shell.quote target ++
        (" >/dev/null 2>&1" ++ "; then\n  "))))))
      [{ opens := ["if", "!"], words := ["findmnt", source, target] }, { opens := ["then"] }] {} := by
  have hif : Reads {} ("if ! " ++ "findmnt ") [] { opens := ["if", "!"], words := ["findmnt"] } :=
    .of_tokens (by simp : _ = "if ! findmnt ") [bareWord "if", bareWord "!", bareWord "findmnt"] (fun _ => rfl)
      (fun _ => by simp +decide [clausesFrom, bareWord])
  have hspace : Reads { opens := ["if", "!"], words := ["findmnt", source] } " " []
      { opens := ["if", "!"], words := ["findmnt", source] } := .of_tokens rfl [] (fun _ => rfl) (fun _ => by simp)
  have hthen : Reads { opens := ["if", "!"], words := ["findmnt", source, target] } (" >/dev/null 2>&1" ++ "; then\n  ")
      [{ opens := ["if", "!"], words := ["findmnt", source, target] }, { opens := ["then"] }] {} :=
    .of_tokens (by simp : _ = " >/dev/null 2>&1; then\n  ")
      [.sign '>', bareWord "/dev/null", .sign '>', .sign '&', bareWord "1", .sign ';', bareWord "then", .sign '\n']
      (fun _ => rfl) (fun _ => by simp +decide [clausesFrom, bareWord, Clause.ended, Function.comp_def])
  have htarget : Reads { opens := ["if", "!"], words := ["findmnt", source] }
      (Shell.quote target ++ (" >/dev/null 2>&1" ++ "; then\n  "))
      [{ opens := ["if", "!"], words := ["findmnt", source, target] }, { opens := ["then"] }] {} :=
    .quote _ hthen (.append_toList (by decide +kernel) _)
  have hall := hif.append (.quote source (hspace.append htarget) (.append_toList (by decide +kernel) _))
  rwa [String.append_assoc] at hall

theorem reads_command {w : String} (ws : List String) (hw : Shell.isCommand w.toList (Shell.isBare w.toList) = true) :
    Reads {} (Shell.commandLine (w :: ws) ++ "\nfi\n") [{ words := w :: ws }, { opens := ["fi"] }] {} :=
  .commandLine hw (.of_tokens rfl [.sign '\n', bareWord "fi", .sign '\n'] (fun _ => rfl)
    (fun _ => by simp +decide [clausesFrom, bareWord, Clause.ended, Function.comp_def])) rfl

/-- A mount of a filesystem is read; a swap device has no clauses. -/
theorem reads_script : ∀ {m : Mounting}, m.clauses ≠ [] → Reads {} m.script m.clauses {}
  | swap _, h => absurd rfl h
  | filesystem source root mountpoint options fsType, _ => by
    have hcommand : Reads {} (Shell.commandLine (filesystem source root mountpoint options fsType).words ++ "\nfi\n")
        [{ words := (filesystem source root mountpoint options fsType).words }, { opens := ["fi"] }] {} :=
        reads_command _ rfl
    have hall := (reads_question source.toText (targetPath root mountpoint)).append hcommand
    have htext : (filesystem source root mountpoint options fsType).script =
        "if ! " ++ ("findmnt " ++ Shell.quote source.toText ++ " " ++ Shell.quote (targetPath root mountpoint) ++
          " >/dev/null 2>&1") ++ "; then\n  " ++
          Shell.commandLine (filesystem source root mountpoint options fsType).words ++ "\nfi\n" := rfl
    rw [htext]
    simp only [String.append_assoc] at hall ⊢
    exact hall

/-- **A mount settles the test that guards it.** -/
theorem settles {M : Machine σ} {holds : Test → σ → Bool} {arrays : List String} (hM : M.Faithful holds arrays) :
    ∀ {m : Mounting}, m.IsRepeatable → Settles M holds m.clauses m.test?.toList
  | filesystem source root mountpoint options fsType, hsource => by
    have hwords : (filesystem source root mountpoint options fsType).words = "mount" :: source.toText ::
        targetPath root mountpoint :: ((if fsType.isGiven then ["-t", fsType.toText] else []) ++
          Shell.optionFlags "-o" options ++ ["-o", "X-mount.mkdir"]) := by
      simp [words, Value.words_of_isSingle hsource]
    rw [clauses, hwords]
    exact Shell.IsGuarded.settles hM (t := .mounted source.toText (targetPath root mountpoint))
      (Shell.isGuarded_condition M [source.toText, targetPath root mountpoint] _ (by decide) (by decide)) rfl
      (.mount _ _ _)

end Mounting

end Provision
