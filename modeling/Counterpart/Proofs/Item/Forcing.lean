import Counterpart.Proofs.Item.Calls
import Counterpart.Proofs.Region.Between

/-! Forcing the simple jump. A delimiter under the cursor is jumped from alike with the rules and without
them; it takes a header line for them to differ. -/

namespace Counterpart

namespace Scene

def forcing (scene : Scene) (forced : Bool) : Scene :=
  { scene with settings := { scene.settings with alwaysSimpleJump := forced } }

lemma isSimple_forcing (scene : Scene) : (scene.forcing true).isSimple = true := rfl

end Scene

namespace Header

variable {scene : Scene} {origin : Int}

lemma looks_inspect_delimiter {d : Delimiter} (h : Delimiter.at? scene origin = some d) :
    (inspect scene).Looks origin [] (some ⟨d.start, d⟩) := by
  have unguarded := Delimiter.unguarded_of_at? h
  refine Act.looks_cursor.bind ?_
  rw [unguarded, if_neg Bool.false_ne_true]
  refine (Delimiter.looks_inspect_unguarded unguarded origin).bind ?_
  rw [h]
  exact Act.looks_pure _

end Header

namespace Item

/-- Started with the cursor at `origin`, an operation writes `noted` and calls its hook, with `start`. Behind
that call it goes to the destination, if there is one, and writes more. What it writes and where it goes is
known before: none of it depends on the hook. -/
def CallsOnce (operation : (β : Type) → (Int → Act β) → Act (β × Option Int)) (origin : Int)
    (noted : List Entry) (start : Int) (destination : Option Int) : Prop :=
  ∃ entries, ∀ (journal : List Entry) (β : Type) (hook : Int → Act β),
    (operation β hook).run ⟨origin, journal⟩ =
      match (hook start).run ⟨origin, journal ++ noted⟩ with
      | (.error halt, left) => (.error halt, left)
      | (.ok mark, marked) =>
        (.ok (mark, destination), ⟨destination.getD marked.cursor, marked.journal ++ entries⟩)

section

variable {α : Type} {origin start : Int} {noted more : List Entry} {destination : Option Int}

lemma callsOnce_hook {finish : (β : Type) → β → Act (β × Option Int)} {entries : List Entry}
    (finishes : ∀ β mark trail, (finish β mark).run trail =
      (.ok (mark, destination), ⟨destination.getD trail.cursor, trail.journal ++ entries⟩)) :
    CallsOnce (fun β hook => hook start >>= finish β) origin [] start destination := by
  refine ⟨entries, fun journal β hook => ?_⟩
  rw [Act.run_bind, List.append_nil]
  rcases (hook start).run ⟨origin, journal⟩ with ⟨halt | mark, marked⟩
  · rfl
  · exact finishes β mark marked

lemma CallsOnce.behind {act : Act α} {next : α → (β : Type) → (Int → Act β) → Act (β × Option Int)}
    {a : α} (looks : act.Looks origin noted a) (calls : CallsOnce (next a) origin more start destination) :
    CallsOnce (fun β hook => act >>= fun a => next a β hook) origin (noted ++ more) start destination := by
  obtain ⟨entries, run⟩ := calls
  refine ⟨entries, fun journal β hook => ?_⟩
  rw [Act.run_bind, looks, ← List.append_assoc]
  exact run (journal ++ noted) β hook

end

variable {scene : Scene} {origin : Int} {rules : List Rule} {count : Number} {noted : List Entry}

lemma callsOnce_askDelimiter {d : Delimiter} (h : Delimiter.at? scene origin = some d) :
    CallsOnce (fun _ hook => askDelimiter scene hook) origin [] d.start (Delimiter.destination? scene d) := by
  obtain ⟨entries, jumps⟩ := Delimiter.exists_run_jump scene d
  have looks := Delimiter.looks_inspect_unguarded (Delimiter.unguarded_of_at? h) origin
  rw [h] at looks
  refine CallsOnce.behind Act.looks_cursor (CallsOnce.behind looks (@callsOnce_hook _ _ _ _ entries ?_))
  intro β mark trail
  rw [Act.run_bind, jumps]
  rfl

lemma exists_callsOnce_askDelimiter (h : Delimiter.at? scene origin = none) :
    ∃ noted, CallsOnce (fun _ hook => askDelimiter scene hook) origin noted origin none := by
  obtain ⟨noted, looks⟩ := Delimiter.exists_looks_inspect scene origin origin
  rw [h] at looks
  refine ⟨_, CallsOnce.behind Act.looks_cursor (CallsOnce.behind looks (@callsOnce_hook _ _ _ _ [] ?_))⟩
  intro β mark trail
  rw [Act.run_pure, List.append_nil]
  rfl

lemma operate_of_simple (simple : scene.isSimple = true) :
    (fun (β : Type) (hook : Int → Act β) => operate scene rules count hook) =
      fun _ hook => askDelimiter scene hook := by
  funext β hook
  rw [operate, simple]
  rfl

def operateTagged (scene : Scene) (times : Number) :
    Option Header → (β : Type) → (Int → Act β) → Act (β × Option Int)
  | none, _, hook => askDelimiter scene hook
  | some header, _, hook => do
    let mark ← hook header.start
    return (mark, ← jumpNoted scene times Rule.delimiters header)

lemma operate_of_not_simple (notSimple : scene.isSimple = false) :
    (fun (β : Type) (hook : Int → Act β) => operate scene [Rule.delimiters] count hook) = fun β hook =>
      Rule.delimiters.inspectSafely scene >>= fun header => operateTagged scene count.times header β hook := by
  funext β hook
  rw [operate_eq hook notSimple, askRules, bind_assoc]
  congr 1
  funext header
  cases header with
  | none => rfl
  | some header =>
    simp only [operateTagged, jumpNoted, askRules, conclude, bind_assoc, pure_bind]
    rfl

lemma exists_run_jumpNoted {rule : Rule} {tag : rule.Tag} {times : Number} {destination : Option Int}
    {entries : List Entry} (jumps : ∀ trail, (rule.jump scene tag times).run trail =
      (.ok destination, ⟨destination.getD trail.cursor, trail.journal ++ entries⟩)) :
    ∃ entries, ∀ trail, (jumpNoted scene times rule tag).run trail =
      (.ok destination, ⟨destination.getD trail.cursor, trail.journal ++ entries⟩) := by
  refine ⟨entries ++ Act.debugEntries scene.settings (s!"rule \"{rule.name}\" jumped from " ++
    offsetText (rule.start tag) ++ " to " ++ offsetText? destination), fun trail => ?_⟩
  rw [jumpNoted, Act.run_bind, jumps, ← List.append_assoc]
  rfl

lemma callsOnce_tagged (notSimple : scene.isSimple = false) {header : Header}
    (looks : (Header.inspect scene).Looks origin noted (some header)) :
    CallsOnce (fun _ hook => operate scene [Rule.delimiters] count hook) origin noted header.start
      (Delimiter.destination? scene header.delimiter) := by
  obtain ⟨_, lands⟩ := Delimiter.exists_run_jump scene header.delimiter
  obtain ⟨entries, jumps⟩ := @exists_run_jumpNoted scene Rule.delimiters header count.times _ _ lands
  have safely : (Rule.delimiters.inspectSafely scene).Looks origin noted (some header) := looks.tryCatch _
  rw [operate_of_not_simple notSimple, ← List.append_nil noted]
  refine CallsOnce.behind safely (@callsOnce_hook _ _ _ _ entries ?_)
  intro β mark trail
  rw [Act.run_bind, jumps]
  rfl

lemma exists_callsOnce_untagged (h : Delimiter.at? scene origin = none)
    (untagged : scene.isSimple = false → Header.at? scene origin = none) :
    ∃ noted, CallsOnce (fun _ hook => operate scene [Rule.delimiters] count hook) origin noted origin none := by
  obtain ⟨noted, asks⟩ := exists_callsOnce_askDelimiter h
  cases simple : scene.isSimple with
  | true => exact ⟨noted, operate_of_simple simple ▸ asks⟩
  | false =>
    obtain ⟨looked, looks⟩ := Header.exists_looks_inspect scene origin
    rw [untagged simple] at looks
    rw [operate_of_not_simple simple]
    have safely : (Rule.delimiters.inspectSafely scene).Looks origin looked none := looks.tryCatch _
    exact ⟨_, CallsOnce.behind safely asks⟩

lemma callsOnce_delimiter {d : Delimiter} (h : Delimiter.at? scene origin = some d) :
    CallsOnce (fun _ hook => operate scene [Rule.delimiters] count hook) origin [] d.start
      (Delimiter.destination? scene d) := by
  cases simple : scene.isSimple with
  | true => exact operate_of_simple simple ▸ callsOnce_askDelimiter h
  | false => exact callsOnce_tagged simple (Header.looks_inspect_delimiter h)

lemma yields_resolve_forcing {cursor : Int} {d : Delimiter} (h : Delimiter.at? scene cursor = some d)
    (forced : Bool) (count : Number) (inner : Bool) :
    (Region.resolve (scene.forcing forced) [Rule.delimiters] count inner).Yields cursor
      ((Delimiter.destination? { scene with selecting := true } d).map
        (Region.ofEnds scene inner d.start)) cursor := by
  let extending : Scene := { scene.forcing forced with selecting := true }
  have tagged : Delimiter.at? extending cursor = some d := h
  have operates := @yields_operate_delimiter extending cursor [Rule.delimiters] count d (.inr (.inl rfl)) tagged
  exact @Region.yields_resolve (scene.forcing forced) [Rule.delimiters] count inner cursor d.start _ _ operates

lemma yields_resolve_forced {cursor : Int} (h : Delimiter.at? scene cursor = none) (count : Number)
    (inner : Bool) :
    (Region.resolve (scene.forcing true) [Rule.delimiters] count inner).Yields cursor none cursor := by
  let extending : Scene := { scene.forcing true with selecting := true }
  have untagged : Delimiter.at? extending cursor = none := h
  have operates := @yields_operate_of_simple extending cursor cursor none [Rule.delimiters] count cursor rfl
    (yields_askDelimiter_none untagged)
  exact @Region.yields_resolve (scene.forcing true) [Rule.delimiters] count inner cursor cursor _ _ operates

lemma exists_callsOnce_off_delimiters (h : Delimiter.at? scene origin = none) :
    ∃ noted start destination,
      CallsOnce (fun _ hook => operate scene [Rule.delimiters] count hook) origin noted start destination ∧
        ∀ landing ∈ destination, scene.isGuarded origin = false ∧
          ∃ (brace : Nat) (d : Delimiter), Header.brace? scene origin = some brace ∧
            Delimiter.at? scene brace = some d ∧ Delimiter.destination? scene d = some landing := by
  cases simple : scene.isSimple with
  | true =>
    obtain ⟨noted, calls⟩ := @exists_callsOnce_untagged scene origin count h (by simp [simple])
    exact ⟨noted, origin, none, calls, by simp⟩
  | false =>
    cases tag : Header.at? scene origin with
    | none =>
      obtain ⟨noted, calls⟩ := @exists_callsOnce_untagged scene origin count h fun _ => tag
      exact ⟨noted, origin, none, calls, by simp⟩
    | some header =>
      obtain ⟨noted, looks⟩ := Header.exists_looks_inspect scene origin
      rw [tag] at looks
      refine ⟨noted, header.start, _, callsOnce_tagged simple looks, fun landing hl => ?_⟩
      rcases Header.at?_cases tag with ⟨tagged, _⟩ | ⟨_, _, brace, hb, ha⟩
      · rw [h] at tagged
        contradiction
      · exact ⟨Header.unguarded_of_at? tag, brace, header.delimiter, hb, ha, hl⟩

/-- Forcing the simple jump agrees with the rule of the delimiters. With a delimiter under the cursor, both
call the hook once, before anything is written, with the same start, and go to the same destination; so the
regions are the same. Without one, the forced operation finds nothing, and the other one finds a destination
only from the brace of a block that the line of an unguarded cursor heads. -/
theorem forced_agrees_at_delimiters (scene : Scene) (count : Number) (cursor : Int) :
    let operates := fun forced (β : Type) (hook : Int → Act β) =>
      operate (scene.forcing forced) [Rule.delimiters] count hook
    let resolves := fun forced inner => Region.resolve (scene.forcing forced) [Rule.delimiters] count inner
    (∀ d, Delimiter.at? scene cursor = some d →
      (∀ forced, CallsOnce (operates forced) cursor [] d.start (Delimiter.destination? scene d)) ∧
      ∀ inner, ∃ region, ∀ forced, (resolves forced inner).Yields cursor region cursor) ∧
    (Delimiter.at? scene cursor = none →
      (∃ noted, CallsOnce (operates true) cursor noted cursor none) ∧
      (∀ inner, (resolves true inner).Yields cursor none cursor) ∧
      ∃ noted start destination, CallsOnce (operates false) cursor noted start destination ∧
        ∀ landing ∈ destination, scene.isGuarded cursor = false ∧
          ∃ (brace : Nat) (d : Delimiter), Header.brace? scene cursor = some brace ∧
            Header.Heads scene (scene.document.lineAt cursor) brace ∧ Delimiter.at? scene brace = some d ∧
              Delimiter.destination? scene d = some landing) := by
  intro operates resolves
  refine ⟨fun d h => ⟨fun forced => callsOnce_delimiter h, fun inner => ?_⟩,
    fun h => ⟨?_, fun inner => ?_, ?_⟩⟩
  · exact ⟨_, fun forced => yields_resolve_forcing h forced count inner⟩
  · exact @exists_callsOnce_untagged (scene.forcing true) cursor count h (by simp [Scene.isSimple_forcing])
  · exact yields_resolve_forced h count inner
  · obtain ⟨noted, start, destination, calls, heads⟩ :=
      @exists_callsOnce_off_delimiters (scene.forcing false) cursor count h
    refine ⟨noted, start, destination, calls, fun landing hl => ?_⟩
    obtain ⟨unguarded, brace, d, hb, ha, hd⟩ := heads landing hl
    exact ⟨unguarded, brace, d, hb, Header.heads_of_brace? hb, ha, hd⟩

-- on a header line the two differ
example :
    let scene := Scene.ofText (.ofString "do \x7b\n\x7d") "typescript" {} false
    let found :=
      fun forced => ((operate (scene.forcing forced) [Rule.delimiters] 1 pure).run ⟨1, []⟩).1.toOption
    found true = some (1, none) ∧ found false = some (0, some 5) := by
  decide +kernel

theorem forced_agrees_at_delimiters_in_conditional :
    let scene := Scene.ofText (.ofString "if (a)\n\x7b\n\x7d") "typescript" {} false
    let operates := fun forced (β : Type) (hook : Int → Act β) =>
      operate (scene.forcing forced) [Rule.delimiters] 1 hook
    Delimiter.at? scene 3 = some ⟨3, 3, true⟩ ∧ (∀ forced, CallsOnce (operates forced) 3 [] 3 (some 5)) ∧
      Delimiter.at? scene 0 = none ∧ (∃ noted, CallsOnce (operates true) 0 noted 0 none) ∧
        ∃ noted start, CallsOnce (operates false) 0 noted start (some 9) ∧
          ∃ brace : Nat, Header.Heads scene (scene.document.lineAt 0) brace := by
  intro scene operates
  obtain ⟨tagged, across, untagged, found⟩ : Delimiter.at? scene 3 = some ⟨3, 3, true⟩ ∧
      Delimiter.destination? scene ⟨3, 3, true⟩ = some 5 ∧ Delimiter.at? scene 0 = none ∧
        ((operates false Int pure).run ⟨0, []⟩).1.toOption.map Prod.snd = some (some 9) := by
    decide +kernel
  have calls := ((forced_agrees_at_delimiters scene 1 3).1 _ tagged).1
  rw [across] at calls
  obtain ⟨forced, _, noted, start, destination, ⟨entries, run⟩, heads⟩ :=
    (forced_agrees_at_delimiters scene 1 0).2 untagged
  rw [run] at found
  obtain rfl : destination = some 9 := Option.some.inj found
  obtain ⟨_, brace, _, _, headed, _⟩ := heads 9 rfl
  exact ⟨tagged, calls, untagged, forced, noted, start, ⟨entries, run⟩, brace, headed⟩

end Item

end Counterpart
