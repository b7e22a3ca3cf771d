import Provision.Proofs.CommandLine.Simulation
/-!
# Layouts that are neither loaded nor refused

Loading a layout gives its tree, or it is refused: it cannot be read as a file, or its text is not of its language.
There is a third way: its path is none, its bytes are no text, or a scalar denotes no value of its type and this is
found out only as the value is made.  `CommandLine.LoadEscapes` says where, and these are exactly the layouts whose
loading ends in another fault than a refusal (`loading_escapes_iff`).  A tree that holds itself is loaded all the same;
only who goes through it finds no end.
-/
namespace Provision

open Files (Path Tree Found)

namespace Files.Tree

theorem at?_ne_invalid (t : Tree) (p : Path) : t.at? p ≠ .invalid := by
  unfold at?
  split
  · simp
  · split <;> simp

theorem walk_eq_invalid {t : Tree} : ∀ {names : List String} {found : Found}, t.walk found names = .invalid →
    found = .invalid
  | [], _, h => h
  | name :: names, found, h => by
    cases found with
    | directory p =>
      rw [walk] at h
      split at h
      · cases h
      · exact absurd (walk_eq_invalid h) (at?_ne_invalid t _)
    | file | missing | noWay | notDirectory | tooLong => cases h
    | invalid => rfl

/-- No path has a name with a null byte, and there is no other name that none has. -/
theorem find_eq_invalid_iff {t : Tree} {p : Path} : t.find p = .invalid ↔ '\x00' ∈ p.text.toList := by
  unfold find
  split
  · rename_i hnull
    exact iff_of_true rfl (List.contains_iff_mem.1 hnull)
  · rename_i hnull
    refine iff_of_false ?_ (mt List.contains_iff_mem.2 hnull)
    split
    · simp
    · exact fun h => nomatch walk_eq_invalid h

end Files.Tree

namespace CommandLine

/-- **A text is neither read nor refused** as JSON or as YAML. -/
inductive ParsingEscapes (text : String) : Bool → Fault → Prop
  | json {m : Misuse} (h : Json.MeetsOverlong m .value (Json.skip text.toList)) : ParsingEscapes text true (.misuse m)
  | yaml {m : Misuse} (h : Yaml.Escapes text m) : ParsingEscapes text false (.misuse m)

/-- **A layout is neither loaded nor refused.** -/
inductive LoadEscapes (files : Tree) (source input : String) : Fault → Prop
  /-- It is read from standard input. -/
  | input {f : Fault} (hsource : source = "-") (h : ParsingEscapes input false f) : LoadEscapes files source input f
  | name (hsource : source ≠ "-") (h : '\x00' ∈ (Path.ofString source).text.toList) :
      LoadEscapes files source input (.misuse .nullCharacter)
  | bytes {p : Path} {file : Files.File} (hsource : source ≠ "-") (hfile : files.find (Path.ofString source) = .file p file)
      (h : String.fromUTF8? file.bytes = none) : LoadEscapes files source input .undecodable
  | text {p : Path} {file : Files.File} {decoded : String} {f : Fault} (hsource : source ≠ "-")
      (hfile : files.find (Path.ofString source) = .file p file) (hdecoded : String.fromUTF8? file.bytes = some decoded)
      (h : ParsingEscapes (String.ofList (withLineFeeds decoded.toList)) ((Path.ofString source).extension == ".json") f) :
      LoadEscapes files source input f

variable {files : Tree} {source input text : String} {isJson : Bool} {f : Fault}

theorem ParsingEscapes.fault (h : ParsingEscapes text isJson f) : ∃ m, f = .misuse m ∧ m ≠ .endless := by
  cases h with
  | json h => exact ⟨_, rfl, h.ne_endless⟩
  | yaml h => exact ⟨_, rfl, h.ne_endless⟩

theorem LoadEscapes.fault (h : LoadEscapes files source input f) :
    f = .undecodable ∨ ∃ m, f = .misuse m ∧ m ≠ .endless := by
  cases h with
  | input _ h | text _ _ _ h => exact .inr h.fault
  | name => exact .inr ⟨_, rfl, by simp⟩
  | bytes => exact .inl rfl

theorem LoadEscapes.kind_ne (h : LoadEscapes files source input f) : f.kind ≠ .layout := by
  obtain rfl | ⟨m, rfl, -⟩ := h.fault
  · decide
  · simp

theorem LoadEscapes.ne_endless (h : LoadEscapes files source input f) : f ≠ .misuse .endless := by
  obtain rfl | ⟨m, rfl, hm⟩ := h.fault
  · simp
  · exact fun h => hm (Fault.misuse.inj h)

theorem failsIn_parseText (text : String) (isJson : Bool) : FailsIn Fault.IsReading (parseText text isJson) := by
  unfold parseText
  split
  · exact Json.failsIn_parse text
  · exact Yaml.failsIn_parse text

theorem parseText_eq_error_iff (hkind : f.kind ≠ .layout) (hend : f ≠ .misuse .endless) :
    parseText text isJson = .error f ↔ ParsingEscapes text isJson f := by
  constructor
  · intro h
    obtain rfl | ⟨m, rfl⟩ := failsIn_parseText text isJson f h
    · exact absurd rfl hkind
    · cases isJson with
      | true => exact .json (Json.parse_eq_misuse_iff.1 h)
      | false => exact .yaml ((Yaml.parse_eq_misuse_iff fun hm => hend (congrArg Fault.misuse hm)).1 h)
  · intro h
    cases h with
    | json h => exact Json.parse_eq_misuse_iff.2 h
    | yaml h => exact (Yaml.parse_eq_misuse_iff h.ne_endless).2 h

theorem textOf_bind_eq_error_iff {bytes : ByteArray} {g : String → Except Fault Value} :
    textOf bytes >>= g = .error f ↔ String.fromUTF8? bytes = none ∧ f = .undecodable ∨
      ∃ decoded, String.fromUTF8? bytes = some decoded ∧ g (String.ofList (withLineFeeds decoded.toList)) = .error f := by
  rw [except_bind_eq_error_iff, textOf]
  cases String.fromUTF8? bytes <;> simp [eq_comm]

/-- **The faults of a layout** that are no refusals are those that escape. -/
theorem loaded_eq_error_iff (hkind : f.kind ≠ .layout) (hend : f ≠ .misuse .endless) :
    loaded files source input = .error f ↔ LoadEscapes files source input f := by
  by_cases hsource : source = "-"
  · rw [loaded, if_pos hsource, parseText_eq_error_iff hkind hend]
    refine ⟨.input hsource, fun h => ?_⟩
    cases h with
    | input _ h => exact h
    | name hne | bytes hne | text hne => exact absurd hsource hne
  · rw [loaded, if_neg hsource]
    constructor
    · intro h
      cases hfound : files.find (Path.ofString source) with
      | file p file =>
        rw [hfound] at h
        obtain ⟨hnone, rfl⟩ | ⟨decoded, hdecoded, h⟩ := textOf_bind_eq_error_iff.1 h
        · exact .bytes hsource hfound hnone
        · exact .text hsource hfound hdecoded ((parseText_eq_error_iff hkind hend).1 h)
      | invalid =>
        rw [hfound] at h
        cases h
        exact .name hsource (Files.Tree.find_eq_invalid_iff.1 hfound)
      | _ =>
        rw [hfound] at h
        cases h
        exact absurd rfl hkind
    · intro h
      cases h with
      | input heq => exact absurd heq hsource
      | name _ h =>
        rw [Files.Tree.find_eq_invalid_iff.2 h]
        rfl
      | bytes _ hfile h =>
        rw [hfile]
        exact textOf_bind_eq_error_iff.2 (.inl ⟨h, rfl⟩)
      | text _ hfile hdecoded h =>
        rw [hfile]
        exact textOf_bind_eq_error_iff.2 (.inr ⟨_, hdecoded, (parseText_eq_error_iff hkind hend).2 h⟩)

end CommandLine

open CommandLine (load loaded LoadEscapes)

/-- **Which layouts are neither loaded nor refused**: exactly those with a path that is none, with bytes that are no
text, with an integer of too many digits in JSON, or with a version in YAML of too many digits, an escape that names no
character or a scalar that denotes no value, where nothing that is refused comes to light before. -/
theorem loading_escapes_iff (source input : String) (s : Session) :
    (∀ f, f ≠ .misuse .endless →
      ((load source input s).1 = .error f ∧ f.kind ≠ .layout ↔ LoadEscapes s.files source input f)) ∧
    (∀ f, LoadEscapes s.files source input f →
      f = .undecodable ∨ ∃ m, f = .misuse m ∧ m ≠ .endless) ∧
    ((∃ v, (load source input s).1 = .ok v) ∨ (load source input s).1 = .error (.misuse .endless) ∨
        (∃ f, (load source input s).1 = .error f ∧ f.kind = .layout) ↔
      ¬ ∃ f, LoadEscapes s.files source input f) := by
  have hload : (load source input s).1 = loaded s.files source input :=
    (CommandLine.tells_load s.files source input).outcome
  have hiff (f : Fault) (hf : f ≠ .misuse .endless) :
      (load source input s).1 = .error f ∧ f.kind ≠ .layout ↔ LoadEscapes s.files source input f := by
    rw [hload]
    exact ⟨fun ⟨h, hkind⟩ => (CommandLine.loaded_eq_error_iff hkind hf).1 h,
      fun h => ⟨(CommandLine.loaded_eq_error_iff h.kind_ne hf).2 h, h.kind_ne⟩⟩
  refine ⟨hiff, fun f h => h.fault, ?_⟩
  constructor
  · rintro hdone ⟨f, hf⟩
    obtain ⟨herror, hkind⟩ := (hiff f hf.ne_endless).2 hf
    rw [herror] at hdone
    obtain ⟨v, hv⟩ | hend | ⟨g, hg, hlayout⟩ := hdone
    · cases hv
    · exact hf.ne_endless (Except.error.inj hend)
    · exact hkind (Except.error.inj hg ▸ hlayout)
  · intro hnone
    cases hresult : (load source input s).1 with
    | ok v => exact .inl ⟨v, rfl⟩
    | error f =>
      refine .inr ?_
      by_cases hf : f = .misuse .endless
      · exact .inl (congrArg _ hf)
      · refine .inr ⟨f, rfl, ?_⟩
        by_contra hkind
        exact hnone ⟨f, (hiff f hf).1 ⟨hresult, hkind⟩⟩

def Yaml.Tree.scalar? : Yaml.Tree → Option (Yaml.Tag × String)
  | scalar tag text => some (tag, text)
  | _ => none

theorem Yaml.Tree.scalar?_eq_some_iff {t : Yaml.Tree} {tag : Yaml.Tag} {text : String} :
    t.scalar? = some (tag, text) ↔ t = .scalar tag text := by
  cases t <;> simp [scalar?]

/-- A date that is not in the calendar on standard input, and a file of one byte that begins no character: neither is
loaded, and neither is refused. -/
theorem loading_fault_escapes_of_no_date :
    (∃ f, (load "-" "2001-13-45" {}).1 = .error f ∧ f.kind ≠ .layout ∧ f.message = "month must be in 1..12") ∧
      ∃ f, (load "layout.yaml" "" { files := { files := [(Path.ofString "layout.yaml", ⟨⟨#[0xFF]⟩, false⟩)] } }).1 =
      .error f ∧
        f.kind = .decoding := by
  constructor
  · have hscalar : (Yaml.Tree.ofText "2001-13-45".toList).toOption.join.bind Yaml.Tree.scalar? =
        some (.timestamp, "2001-13-45") := by decide +kernel
    have htree : Yaml.Tree.ofText "2001-13-45".toList = .ok (some (.scalar .timestamp "2001-13-45")) := by
      obtain ⟨t, ht, hscalar⟩ := Option.bind_eq_some_iff.1 hscalar
      rw [← Yaml.Tree.scalar?_eq_some_iff.1 hscalar]
      exact eq_ok_of_toOption (Option.join_eq_some_iff.1 ht)
    have hfaults : (Yaml.Tree.scalar .timestamp "2001-13-45").faults =
        [] ++ (0, .misuse (.misread (.notInCalendar .month))) :: [] := by
      rw [Yaml.Tree.faults]
      rfl
    have hescapes : Yaml.Escapes "2001-13-45" (.misread (.notInCalendar .month)) := .tree htree hfaults (by simp) (by simp)
    refine ⟨.misuse (.misread (.notInCalendar .month)), ?_, by simp, rfl⟩
    rw [(CommandLine.tells_load {} "-" "2001-13-45").outcome (s := {})]
    exact (CommandLine.loaded_eq_error_iff (by decide) (by simp)).2 (.input rfl (.yaml hescapes))
  · refine ⟨.undecodable, ?_, rfl⟩
    rw [(CommandLine.tells_load _ "layout.yaml" "").outcome]
    exact (CommandLine.loaded_eq_error_iff (by decide) (by simp)).2 (.bytes (by decide) rfl (by decide +kernel))

end Provision
