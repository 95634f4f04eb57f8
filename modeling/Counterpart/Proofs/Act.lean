import Counterpart.Act
import Mathlib.Tactic.Lemma

namespace Counterpart

namespace Act

variable {α β : Type}

/-- Started with the cursor at `origin`, an act returns `result` and leaves the cursor at `landing`. Whatever stood
in the journal, it only adds to it. -/
def Yields (act : Act α) (origin : Int) (result : α) (landing : Int) : Prop :=
  ∀ journal, ∃ entries, act.run ⟨origin, journal⟩ = (.ok result, ⟨landing, journal ++ entries⟩)

def Raises (act : Act α) (origin : Int) (message : String) (landing : Int) : Prop :=
  ∀ journal, ∃ entries, act.run ⟨origin, journal⟩ =
    (.error (.raised message), ⟨landing, journal ++ entries⟩)

lemma Yields.unique {act : Act α} {origin landing landing' : Int} {a b : α} (ha : act.Yields origin a landing)
    (hb : act.Yields origin b landing') : a = b ∧ landing = landing' := by
  obtain ⟨ea, ha⟩ := ha []
  obtain ⟨eb, hb⟩ := hb []
  rw [ha] at hb
  obtain ⟨hr, ht⟩ := Prod.mk.inj hb
  exact ⟨Except.ok.inj hr, congrArg Trail.cursor ht⟩

lemma yields_pure (origin : Int) (a : α) : (pure a : Act α).Yields origin a origin :=
  fun _ => ⟨[], by rw [run_pure, List.append_nil]⟩

lemma yields_cursor (origin : Int) : cursor.Yields origin origin origin :=
  fun _ => ⟨[], by rw [run_cursor, List.append_nil]⟩

lemma yields_moveTo (origin position : Int) : (moveTo position).Yields origin () position :=
  fun _ => ⟨[], by rw [run_moveTo, List.append_nil]⟩

lemma yields_debug (settings : Settings) (message : String) (origin : Int) :
    (debug settings message).Yields origin () origin :=
  fun _ => ⟨debugEntries settings message, run_debug settings message _⟩

lemma yields_record (entry : Entry) (origin : Int) : (record entry).Yields origin () origin :=
  fun _ => ⟨[entry], run_record entry _⟩

lemma Yields.bind {act : Act α} {next : α → Act β} {origin between landing : Int} {a : α} {b : β}
    (first : act.Yields origin a between) (second : (next a).Yields between b landing) :
    (act >>= next).Yields origin b landing := by
  intro journal
  obtain ⟨entries, hf⟩ := first journal
  obtain ⟨more, hs⟩ := second (journal ++ entries)
  refine ⟨entries ++ more, ?_⟩
  rw [run_bind, hf]
  exact hs.trans (by rw [List.append_assoc])

/-- Started with the cursor at `origin`, an act goes on without end. -/
def Endless (act : Act α) (origin : Int) : Prop :=
  ∀ journal, ∃ left, act.run ⟨origin, journal⟩ = (.error .endless, left)

lemma endless_throw (origin : Int) : (throw .endless : Act α).Endless origin := fun _ => ⟨_, run_throw _ _⟩

lemma Endless.bind {act : Act α} {origin : Int} (h : act.Endless origin) (next : α → Act β) :
    (act >>= next).Endless origin := by
  intro journal
  obtain ⟨left, he⟩ := h journal
  exact ⟨left, by rw [run_bind, he]⟩

lemma Yields.bind_endless {act : Act α} {next : α → Act β} {origin between : Int} {a : α}
    (first : act.Yields origin a between) (second : (next a).Endless between) : (act >>= next).Endless origin := by
  intro journal
  obtain ⟨entries, hf⟩ := first journal
  obtain ⟨left, hs⟩ := second (journal ++ entries)
  exact ⟨left, by rw [run_bind, hf]; exact hs⟩

lemma Endless.not_yields {act : Act α} {origin landing : Int} {a : α} (h : act.Endless origin) :
    ¬ act.Yields origin a landing := by
  intro yields
  obtain ⟨left, he⟩ := h []
  obtain ⟨entries, hy⟩ := yields []
  cases he.symm.trans hy

section

variable {origin between : Int} {good : α → Prop} {fine : β → Prop} {hangs : Prop}

/-- Started with the cursor at `origin`, an act comes to a good result. It goes on without end only if `hangs`. -/
def Settles (act : Act α) (origin : Int) (good : α → Prop) (hangs : Prop) : Prop :=
  (∃ result landing, act.Yields origin result landing ∧ good result) ∨ hangs ∧ act.Endless origin

lemma Yields.settles {act : Act α} {a : α} (h : act.Yields origin a between) (ha : good a) :
    act.Settles origin good hangs :=
  .inl ⟨a, between, h, ha⟩

lemma Yields.bind_settles {act : Act α} {next : α → Act β} {a : α} (first : act.Yields origin a between)
    (second : (next a).Settles between fine hangs) : (act >>= next).Settles origin fine hangs := by
  rcases second with ⟨b, landing, yields, hb⟩ | ⟨h, endless⟩
  · exact (first.bind yields).settles hb
  · exact .inr ⟨h, first.bind_endless endless⟩

lemma Settles.bind {act : Act α} {next : α → Act β} (first : act.Settles origin good hangs)
    (second : ∀ a between, good a → (next a).Settles between fine hangs) :
    (act >>= next).Settles origin fine hangs := by
  rcases first with ⟨a, between, yields, ha⟩ | ⟨h, endless⟩
  · exact yields.bind_settles (second a between ha)
  · exact .inr ⟨h, endless.bind next⟩

lemma Settles.mono {act : Act α} {good' : α → Prop} (h : act.Settles origin good hangs)
    (imp : ∀ a, good a → good' a) :
    act.Settles origin good' hangs :=
  h.imp_left fun ⟨a, landing, yields, ha⟩ => ⟨a, landing, yields, imp a ha⟩

lemma Settles.imp {act : Act α} {hangs' : Prop} (h : act.Settles origin good hangs) (imp : hangs → hangs') :
    act.Settles origin good hangs' :=
  h.imp_right (And.imp_left imp)

end

lemma run_map (f : α → β) (act : Act α) (trail : Trail) :
    run (f <$> act) trail =
      match act.run trail with
      | (.ok a, after) => (.ok (f a), after)
      | (.error halt, after) => (.error halt, after) := by
  rw [map_eq_pure_bind, run_bind]
  rfl

lemma run_tryCatch (act : Act α) (handler : Halt → Act α) (trail : Trail) :
    run (tryCatch act handler) trail =
      match act.run trail with
      | (.ok a, after) => (.ok a, after)
      | (.error halt, after) => (handler halt).run after := by
  change (ExceptT.tryCatch act handler) trail = _
  simp only [ExceptT.tryCatch, ExceptT.mk, run, Bind.bind, StateT.bind]
  rcases act trail with ⟨result, after⟩
  cases result <;> rfl

lemma Yields.tryCatch {act : Act α} {origin landing : Int} {a : α} (h : act.Yields origin a landing)
    (handler : Halt → Act α) : (tryCatch act handler).Yields origin a landing := by
  intro journal
  obtain ⟨entries, he⟩ := h journal
  refine ⟨entries, ?_⟩
  rw [run_tryCatch, he]

lemma Raises.tryCatch {act : Act α} {handler : Halt → Act α} {origin between landing : Int}
    {message : String} {a : α}
    (h : act.Raises origin message between) (handles : (handler (.raised message)).Yields between a landing) :
    (tryCatch act handler).Yields origin a landing := by
  intro journal
  obtain ⟨entries, he⟩ := h journal
  obtain ⟨more, hm⟩ := handles (journal ++ entries)
  refine ⟨entries ++ more, ?_⟩
  rw [run_tryCatch, he, ← List.append_assoc, ← hm]

def Adds (act : Act α) : Prop := ∀ trail, trail.journal <+: (act.run trail).2.journal

lemma Adds.of_run {act : Act α} (adds : act.Adds) {trail after : Trail} {result : Except Halt α}
    (h : act.run trail = (result, after)) : trail.journal <+: after.journal := by
  have ha := adds trail
  rwa [h] at ha

lemma adds_pure (a : α) : (pure a : Act α).Adds := fun _ => List.prefix_rfl

lemma adds_moveTo (position : Int) : (moveTo position).Adds := fun _ => List.prefix_rfl

lemma adds_record (entry : Entry) : (record entry).Adds := fun _ => List.prefix_append _ _

lemma adds_debug (settings : Settings) (message : String) : (debug settings message).Adds :=
  fun _ => List.prefix_append _ _

lemma adds_throw (halt : Halt) : (throw halt : Act α).Adds := fun _ => List.prefix_rfl

lemma adds_of_yields {act : Act α} (h : ∀ origin, ∃ result landing, act.Yields origin result landing) :
    act.Adds := by
  intro trail
  obtain ⟨result, landing, hy⟩ := h trail.cursor
  obtain ⟨entries, run⟩ := hy trail.journal
  change act.run trail = _ at run
  rw [run]
  exact List.prefix_append _ _

lemma Adds.bind {act : Act α} {next : α → Act β} (first : act.Adds) (second : ∀ a, (next a).Adds) :
    (act >>= next).Adds := by
  intro trail
  rw [run_bind]
  rcases hr : act.run trail with ⟨halt | a, after⟩
  · exact first.of_run hr
  · exact (first.of_run hr).trans (second a after)

lemma mem_journal_bind {act : Act α} {next : α → Act β} (adds : ∀ a, (next a).Adds) {trail : Trail}
    {entry : Entry}
    (h : entry ∈ (act.run trail).2.journal) : entry ∈ ((act >>= next).run trail).2.journal := by
  rw [run_bind]
  rcases hr : act.run trail with ⟨halt | a, after⟩ <;> rw [hr] at h
  · exact h
  · exact (adds a after).mem h

section

variable {origin : Int} {noted more : List Entry}

def Looks (act : Act α) (origin : Int) (noted : List Entry) (result : α) : Prop :=
  ∀ journal, act.run ⟨origin, journal⟩ = (.ok result, ⟨origin, journal ++ noted⟩)

lemma Looks.yields {act : Act α} {a : α} (h : act.Looks origin noted a) : act.Yields origin a origin :=
  fun journal => ⟨noted, h journal⟩

lemma looks_pure (a : α) : (pure a : Act α).Looks origin [] a := fun journal => by rw [run_pure, List.append_nil]

lemma looks_cursor : cursor.Looks origin [] origin := fun journal => by rw [run_cursor, List.append_nil]

lemma looks_debug (settings : Settings) (message : String) :
    (debug settings message).Looks origin (debugEntries settings message) () := fun _ => run_debug _ _ _

lemma Looks.bind {act : Act α} {next : α → Act β} {a : α} {b : β} (first : act.Looks origin noted a)
    (second : (next a).Looks origin more b) : (act >>= next).Looks origin (noted ++ more) b := by
  intro journal
  rw [run_bind, first, ← List.append_assoc]
  exact second _

lemma Looks.tryCatch {act : Act α} {a : α} (h : act.Looks origin noted a) (handler : Halt → Act α) :
    (tryCatch act handler).Looks origin noted a := by
  intro journal
  rw [run_tryCatch, h]

lemma exists_looks_bind {act : Act α} {next : α → Act β} {a : α} {b : β}
    (first : ∃ noted, act.Looks origin noted a)
    (second : ∃ more, (next a).Looks origin more b) : ∃ noted, (act >>= next).Looks origin noted b := by
  obtain ⟨noted, hf⟩ := first
  obtain ⟨more, hs⟩ := second
  exact ⟨_, hf.bind hs⟩

end

end Act

end Counterpart
