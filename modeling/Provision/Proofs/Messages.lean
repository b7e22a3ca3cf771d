import Provision.Proofs.Mount.Walk
/-!
# What a compilation says

A message of a reading begins with the place that it is about (`Layout.mem_record_read`); a creation tells details and
reports aggregates without members (`Layout.mem_messages_creation`).  So the reports of paths that are written again are
those of the mount walk (`overwrites_mem_record_compile_iff`).
-/
namespace Provision

open Value (Entries)

namespace Message

def overwrites (path : String) : Message :=
  ⟨.warning, "Mount path " ++ path ++ " is declared more than once, keeping the last one"⟩

theorem overwrites_inj {p q : String} : overwrites p = overwrites q ↔ p = q := by
  refine ⟨fun h => String.toList_injective ?_, fun h => h ▸ rfl⟩
  have htext := congrArg String.toList (Message.mk.inj h).2
  simpa only [String.toList_append, List.append_cancel_left_eq, List.append_cancel_right_eq] using htext

theorem text_overwrites_ne {path start rest : String} {c : Char} (h : start.toList.head? = some c) (hc : c ≠ 'M') :
    (overwrites path).text ≠ start ++ rest := by
  intro he
  have hhead := congrArg (fun s : String => s.toList.head?) he
  simp only [overwrites, String.toList_append, List.head?_append, h, Option.some_or] at hhead
  exact hc (Option.some.inj hhead).symm

end Message

namespace Node

theorem text_of_mem_warnUnknown {path : String} {unknown : List String} {m : Message}
    (h : m ∈ (warnUnknown path unknown).record) : ∃ rest, m.text = path ++ rest := by
  unfold warnUnknown at h
  split at h
  · cases h
  · obtain rfl := List.mem_singleton.1 h
    exact ⟨_, String.append_assoc ..⟩

/-- What is said below a node is said in the reading of a smaller value, at a place below that of the node. -/
theorem exists_read_of_mem_record_below {raw : Value} {d : Declared} {holding : Kind.Holding} {m : Message}
    (h : m ∈ (readBelow raw d holding).record) :
    ∃ raw' p' rest, sizeOf raw' < sizeOf raw ∧ m ∈ (read raw' p').record ∧ p'.path = d.path ++ rest := by
  have hplace (option rest : String) : d.place option ++ rest = d.path ++ ("." ++ option ++ rest) := by
    simp only [Declared.place, String.append_assoc]
  unfold readBelow at h
  split at h
  · cases h
  · split at h
    · cases h
    · rename_i v hv _
      simp only [Traced.mem_record_bind_iff, Traced.record_liftM, Traced.record_pure, List.not_mem_nil, false_or, and_false,
        exists_false, or_false] at h
      obtain ⟨_, -, h⟩ := h
      exact ⟨v, _, "." ++ "content", hv, h, String.append_assoc ..⟩
  · split at h
    · cases h
    · rename_i v hv _
      simp only [Traced.mem_record_bind_iff, Traced.record_liftM, Traced.record_pure, List.not_mem_nil, false_or, and_false,
        exists_false, or_false] at h
      obtain ⟨_, -, h⟩ := h
      obtain ⟨⟨⟨x, hx⟩, i⟩, -, h⟩ := Traced.exists_of_mem_record_mapM h
      exact ⟨x, _, _, Nat.lt_trans hx hv, h, by simp only [String.append_assoc, hplace]; rfl⟩
  · split at h
    · cases h
    · rename_i v hv _
      simp only [Traced.mem_record_bind_iff, Traced.record_liftM, Traced.record_pure, List.not_mem_nil, false_or, and_false,
        exists_false, or_false] at h
      obtain ⟨_, -, h⟩ := h
      obtain ⟨⟨⟨k, x⟩, hx⟩, -, h⟩ := Traced.exists_of_mem_record_mapM h
      exact ⟨x, _, _, Nat.lt_trans hx hv, h, by simp only [String.append_assoc, hplace]; rfl⟩

/-- **What is said in the reading of a node begins with its place.** -/
theorem text_of_mem_record_read {raw : Value} {p : Place} {m : Message} (h : m ∈ (read raw p).record) :
    ∃ rest, m.text = p.path ++ rest := by
  unfold read at h
  obtain ⟨_, -, h⟩ := (Traced.mem_record_bind_iff.1 h).resolve_left List.not_mem_nil
  split at h
  · simp only [Traced.mem_record_bind_iff, Traced.record_liftM, Traced.record_pure, List.not_mem_nil, false_or, and_false,
      exists_false, or_false] at h
    obtain ⟨_, -, _, -, h | ⟨_, -, _, -, h⟩⟩ := h
    · exact text_of_mem_warnUnknown h
    · obtain ⟨raw', p', rest, hlt, hread, hpath⟩ := exists_read_of_mem_record_below h
      obtain ⟨rest', htext⟩ := text_of_mem_record_read hread
      exact ⟨rest ++ rest', by rw [htext, hpath, String.append_assoc]⟩
  · cases h
termination_by sizeOf raw

end Node

namespace Layout

theorem text_of_mem_record_readGroup {es : Entries} {g : Group} {m : Message} (h : m ∈ (readGroup es g).record) :
    ∃ rest, m.text = g.name ++ rest := by
  unfold readGroup at h
  dsimp only at h
  split at h
  · cases h
  · split at h
    · obtain h | ⟨_, -, h⟩ := Traced.mem_record_bind_iff.1 h
      · obtain ⟨e, -, h⟩ := Traced.exists_of_mem_record_mapM h
        obtain ⟨rest, htext⟩ := Node.text_of_mem_record_read h
        exact ⟨"." ++ e.1.toText ++ rest, by rw [htext]; simp only [String.append_assoc]⟩
      · cases h
    · cases h

/-- **What is said in the reading of a layout** is a detail, or begins with the name of a group. -/
theorem mem_record_read {tree : Value} {m : Message} (h : m ∈ (read tree).record) :
    m.level = .debug ∨ ∃ (g : Group) (rest : String), m.text = g.name ++ rest := by
  unfold read at h
  split at h
  · simp only [Traced.mem_record_bind_iff, Traced.record_liftM, List.not_mem_nil, false_or] at h
    obtain ⟨_, -, h⟩ := h
    split at h
    · simp only [Traced.mem_record_bind_iff, Traced.outcome_fail, reduceCtorEq, false_and, exists_false, or_false] at h
      cases h
    · simp only [Traced.mem_record_bind_iff, Traced.record_pure, List.not_mem_nil, and_false, exists_false, or_false] at h
      obtain h | ⟨_, -, h⟩ := h
      · obtain ⟨g, -, h⟩ := Traced.exists_of_mem_record_mapM h
        simp only [Traced.mem_record_bind_iff, Traced.record_pure, List.not_mem_nil, and_false, exists_false, or_false] at h
        exact .inr ⟨g, text_of_mem_record_readGroup h⟩
      · obtain rfl := List.mem_singleton.1 h
        exact .inl rfl
  · cases h

end Layout

namespace Message

/-- A detail, or the report of an aggregate without members. -/
def IsOfCreation (m : Message) : Prop := m.level = .debug ∨ ∃ rest, m.text = "No member devices were found for " ++ rest

theorem isOfCreation_of_mem_debug {text : String} {m : Message} (h : m ∈ (logDebug text).record) : m.IsOfCreation :=
  .inl (List.mem_singleton.1 h ▸ rfl)

theorem isOfCreation_of_mem_record {r : Recording} {m : Message} (h : m ∈ r.record.record) : m.IsOfCreation := by
  obtain ⟨_, -, h⟩ := (Traced.mem_record_bind_iff.1 h).resolve_left List.not_mem_nil
  obtain h | ⟨_, -, h⟩ := Traced.mem_record_bind_iff.1 h
  · exact isOfCreation_of_mem_debug h
  · split at h <;> cases h

theorem isOfCreation_of_mem_collect {rs : List Recording} {group : String} {name : Value} {m : Message}
    (h : m ∈ (Recording.collect rs group name).record) : m.IsOfCreation := by
  unfold Recording.collect at h
  split at h
  · cases h
  · dsimp only at h
    split at h
    · obtain ⟨_, -, h⟩ := (Traced.mem_record_bind_iff.1 h).resolve_left List.not_mem_nil
      obtain h | ⟨_, -, h⟩ := Traced.mem_record_bind_iff.1 h
      · obtain rfl := List.mem_singleton.1 h
        exact .inr ⟨group ++ "." ++ name.toText, by simp only [String.append_assoc]⟩
      · cases h
    · cases h

end Message

namespace Creation

theorem message_mem_log {α : Type} {x : Logged α} {m : Message} : .message m ∈ (log x).record ↔ m ∈ x.record := by
  simp [log]

theorem message_notMem_step {s : Step Action} {m : Message} : .message m ∉ (step s).record := by
  simp [step]

theorem isOfCreation_of_mem_prepare {spec : Spec} {ctx : Context} {bare : Bool} {m : Message}
    (h : .message m ∈ (spec.prepare ctx bare).record) : m.IsOfCreation := by
  unfold Spec.prepare at h
  split at h
  · obtain h | ⟨_, -, h⟩ := Traced.mem_record_bind_iff.1 h
    · obtain h | ⟨_, -, h⟩ := Traced.mem_record_bind_iff.1 h
      · exact Message.isOfCreation_of_mem_record (message_mem_log.1 h)
      · cases List.mem_singleton.1 h
    · cases h
  · obtain h | ⟨devices, -, h⟩ := Traced.mem_record_bind_iff.1 h
    · exact Message.isOfCreation_of_mem_collect (message_mem_log.1 h)
    · obtain ⟨_, -, h⟩ := (Traced.mem_record_bind_iff.1 h).resolve_left List.not_mem_nil
      obtain h | ⟨_, -, h⟩ := Traced.mem_record_bind_iff.1 h
      · obtain ⟨_, -, h⟩ := Traced.exists_of_mem_record_mapM h
        cases h
      · obtain h | ⟨_, -, h⟩ := Traced.mem_record_bind_iff.1 h
        · exact Message.isOfCreation_of_mem_debug (message_mem_log.1 h)
        · cases h
  · split at h
    · obtain ⟨_, -, h⟩ := (Traced.mem_record_bind_iff.1 h).resolve_left List.not_mem_nil
      obtain h | ⟨_, -, h⟩ := Traced.mem_record_bind_iff.1 h
      · exact Message.isOfCreation_of_mem_debug (message_mem_log.1 h)
      · cases h
    · cases h

theorem isOfCreation_of_mem_own {v : Visit} {m : Message} (h : .message m ∈ v.own.record) : m.IsOfCreation := by
  obtain h | ⟨_, -, h⟩ := Traced.mem_record_bind_iff.1 h
  · exact isOfCreation_of_mem_prepare h
  · obtain h | ⟨actions, -, h⟩ := Traced.mem_record_bind_iff.1 h
    · cases h
    · obtain ⟨_, -, h⟩ := (Traced.mem_record_bind_iff.1 h).resolve_left List.not_mem_nil
      rw [record_forM_run] at h
      obtain ⟨_, -, h⟩ := List.mem_map.1 h
      cases h

end Creation

namespace Node

mutual

/-- **What is said in the creation of a node** and of all below it. -/
theorem isOfCreation_of_mem_create : ∀ (n : Node) (ctx : Context) (m : Message), .message m ∈ (n.create ctx).record →
    m.IsOfCreation
  | ⟨key, spec, hooks, children⟩, ctx, m, h => by
    rw [create_eq] at h
    simp only [Traced.mem_record_bind_iff, Creation.message_notMem_step, false_or, Creation.message_mem_log] at h
    obtain ⟨_, -, _, -, h | ⟨_, -, h | ⟨_, -, _, -, h | ⟨_, -, h⟩⟩⟩⟩ := h
    · exact Creation.isOfCreation_of_mem_own h
    · unfold createBelow at h
      split at h
      · simp only [Traced.mem_record_bind_iff, Traced.record_liftM, List.not_mem_nil, false_or] at h
        obtain ⟨inner, -, h⟩ := h
        exact isOfCreation_of_mem_createAll children inner m h
      · cases h
    · cases h
    · exact Message.isOfCreation_of_mem_debug h

theorem isOfCreation_of_mem_createAll : ∀ (ns : List Node) (ctx : Context) (m : Message),
    .message m ∈ (createAll ns ctx).record → m.IsOfCreation
  | [], _, _, h => by cases h
  | n :: ns, ctx, m, h => by
    obtain h | ⟨_, -, h⟩ := Traced.mem_record_bind_iff.1 h
    · exact isOfCreation_of_mem_create n ctx m h
    · exact isOfCreation_of_mem_createAll ns ctx m h

end

end Node

namespace Layout

theorem isOfCreation_of_mem_createDevices {root : String} {m : Message} : ∀ {ds : List Device} {ms : List Recording},
    .message m ∈ (createDevices root ds ms).record → m.IsOfCreation
  | [], _, h => by cases h
  | d :: ds, ms, h => by
    simp only [createDevices, Traced.mem_record_bind_iff, Creation.message_mem_log] at h
    obtain h | ⟨_, -, h | ⟨_, -, h⟩⟩ := h
    · exact Message.isOfCreation_of_mem_debug h
    · exact Node.isOfCreation_of_mem_create _ _ _ h
    · exact isOfCreation_of_mem_createDevices h

/-- **What is said in the creation of a layout.** -/
theorem mem_messages_creation {l : Layout} {root : String} {order : List DeviceRef} {m : Message}
    (h : m ∈ Creation.messages (l.creation root order).record) : m.IsOfCreation := by
  obtain ⟨e, he, hm⟩ := List.mem_filterMap.1 h
  split at hm
  · obtain rfl := Option.some.inj hm
    exact isOfCreation_of_mem_createDevices he
  · cases hm

end Layout

theorem Message.not_isOfCreation_overwrites (path : String) : ¬ (overwrites path).IsOfCreation := by
  rintro (h | ⟨rest, h⟩)
  · cases h
  · exact text_overwrites_ne (c := 'N') rfl (by decide) h

/-- **The reports of paths that are written again** in a compilation that succeeds are those of the mount walk. -/
theorem overwrites_mem_record_compile_iff {tree : Value} {root : String} {c : Compiled}
    (h : (compile tree root).outcome = .ok c) {l : Layout} (hl : (Layout.read tree).outcome = .ok l) (path : String) :
    .overwrites path ∈ (compile tree root).record ↔ .overwrites path ∈ (l.mountFragment root c.order).record := by
  obtain ⟨f, hf, -, -⟩ := compile_mounts h hl
  unfold compile at h
  simp only [Traced.outcome_bind_eq_ok_iff, Traced.outcome_liftM, Traced.outcome_pure, Except.ok.injEq] at h
  obtain ⟨l', hl', m, hm, order, horder, _, -, script, hscript, mount, hmount, facts, hfacts, tools, htools, _, -, rfl⟩ := h
  cases hl.symm.trans hl'
  have hread : .overwrites path ∉ (Layout.read tree).record := fun hmem => by
    obtain hlevel | ⟨g, rest, htext⟩ := Layout.mem_record_read hmem
    · cases hlevel
    · cases g <;> exact Message.text_overwrites_ne rfl (by decide) htext
  have horders : .overwrites path ∉ (l.order m).record := fun hmem => by
    obtain hmem | ⟨_, -, hmem⟩ := Traced.mem_record_bind_iff.1 hmem
    · cases hmem
    · obtain hmem | ⟨_, -, hmem⟩ := Traced.mem_record_bind_iff.1 hmem
      · cases List.mem_singleton.1 hmem
      · cases hmem
  have hcreation : .overwrites path ∉ (l.createScript root order).record := fun hmem => by
    obtain hmem | ⟨_, -, hmem⟩ := Traced.mem_record_bind_iff.1 hmem
    · exact Message.not_isOfCreation_overwrites path (Layout.mem_messages_creation hmem)
    · cases hmem
  have hmounts : (l.mountScript root order).record = (l.mountFragment root order).record := by
    rw [Layout.mountScript, Traced.bind_ok hf]
    exact List.append_nil _
  have hlevel (level : Level) (text : String) (hne : level ≠ .warning) : Message.overwrites path ≠ ⟨level, text⟩ :=
    fun he => hne (Message.mk.inj he).1.symm
  simp only [compile, Traced.record_bind, hl, Traced.outcome_liftM, hm, horder, logInfo, logDebug,
    Traced.outcome_tell, hscript,
    hmount, hfacts, htools, Traced.record_liftM, Traced.record_tell, Traced.record_pure, List.mem_append, List.mem_singleton,
    List.not_mem_nil, hread, horders, hcreation, hmounts, hlevel, ne_eq, reduceCtorEq, not_false_eq_true, false_or, or_false]

end Provision
