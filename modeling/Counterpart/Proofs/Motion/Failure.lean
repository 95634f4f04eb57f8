import Counterpart.Proofs.Item.Failure
import Counterpart.Proofs.Motion

namespace Counterpart

namespace Item

variable {scene : Scene} {rules : List Rule} {count : Number}

/-- An act that asks rules and takes their failures as it should, but for an error of the one jump it makes. -/
structure Withstands {α : Type} (act : Act (Option α)) (scene : Scene) (times : Number) (asked : List Rule)
    (start : Trail) : Prop where
  halts : ∀ halt left, act.run start = (.error halt, left) ↔
    ∃ found ∈ firstTag? scene asked start, found.jump scene times = (.error halt, left)
  answers : ∀ found ∈ firstTag? scene asked start, ∀ destination landed,
    found.jump scene times = (.ok destination, landed) →
      ∃ result left, act.run start = (.ok result, left) ∧ (result = none ↔ destination = none)
  notes : ∀ rule place message after, AskedAt scene times rule place false asked start →
    (rule.inspect scene).run place = (.error (.raised message), after) →
      rule.failure after.cursor message ∈ (act.run start).2.journal
  stays : ∀ left, act.run start = (.ok none, left) → left.cursor = start.cursor

lemma withstands_cursor {α : Type} {next : Int → Act (Option α)} {scene : Scene} {times : Number}
    {asked : List Rule} {start : Trail} (h : Withstands (next start.cursor) scene times asked start) :
    Withstands (Act.cursor >>= next) scene times asked start := by
  have same : (Act.cursor >>= next).run start = (next start.cursor).run start := by
    rw [Act.run_bind, Act.run_cursor]
  obtain ⟨halts, answers, notes, stays⟩ := h
  constructor <;> rwa [same]

lemma askDelimiter_adds (scene : Scene) : (askDelimiter scene pure).Adds :=
  Act.adds_of_yields fun origin =>
    have ⟨found, landing, hy, _⟩ := exists_yields_askDelimiter scene origin
    ⟨found, landing, hy⟩

variable (orderly : ∀ rule ∈ rules, rule.Orderly scene)
include orderly

lemma orderly_asked : ∀ rule ∈ if scene.isSimple then [] else rules, rule.Orderly scene := by
  split
  · simp
  · exact orderly

lemma run_operate (trail : Trail) :
    match firstTag? scene (if scene.isSimple then [] else rules) trail with
    | none => ∃ found left, (operate scene rules count pure).run trail = (.ok found, left)
    | some found =>
      (∀ halt left, found.jump scene count.times = (.error halt, left) →
        (operate scene rules count pure).run trail = (.error halt, left)) ∧
      ∀ destination landed, found.jump scene count.times = (.ok destination, landed) →
        ∃ mark left, (operate scene rules count pure).run trail = (.ok (mark, destination), left) := by
  have asks := run_askRules count.times (orderly_asked orderly) trail
  rw [operate, Act.run_bind]
  cases hf : firstTag? scene (if scene.isSimple then [] else rules) trail with
  | none =>
    rw [hf] at asks
    obtain ⟨left, hl⟩ := asks
    obtain ⟨found, landing, hy, _⟩ := exists_yields_askDelimiter scene left.cursor
    obtain ⟨entries, he⟩ := hy left.journal
    rw [hl]
    exact ⟨found, _, he⟩
  | some found =>
    rw [hf] at asks
    obtain ⟨fails, lands⟩ := asks
    constructor
    · intro halt left h
      rw [fails halt left h]
    · intro destination landed h
      obtain ⟨mark, left, hl⟩ := lands destination landed h
      rw [hl]
      exact ⟨mark, left, rfl⟩

lemma failure_noted_operate {α : Type} {next : Int × Option Int → Act (Option α)}
    (adds : ∀ found, (next found).Adds) {rule : Rule} {place start after : Trail} {message : String}
    (asked : AskedAt scene count.times rule place false (if scene.isSimple then [] else rules) start)
    (fails : (rule.inspect scene).run place = (.error (.raised message), after)) :
    rule.failure after.cursor message ∈ ((operate scene rules count pure >>= next).run start).2.journal := by
  apply Act.mem_journal_bind adds
  apply Act.mem_journal_bind
  · intro found
    cases found with
    | none => exact askDelimiter_adds scene
    | some found => exact Act.adds_pure _
  · exact failure_noted count.times (orderly_asked orderly) asked fails none rfl

lemma withstands_operate {α : Type} {next : Int × Option Int → Act (Option α)} {start : Trail}
    (adds : ∀ found, (next found).Adds)
    (settles : ∀ found trail, ∃ result left, (next found).run trail = (.ok result, left) ∧
      (result = none ↔ found.2 = none) ∧ (result = none → left.cursor = start.cursor)) :
    Withstands (operate scene rules count pure >>= next) scene count.times (if scene.isSimple then [] else rules)
      start := by
  have runs := @run_operate scene rules count orderly start
  have answer : ∀ {found left}, (operate scene rules count pure).run start = (.ok found, left) →
      ∃ result after, (operate scene rules count pure >>= next).run start = (.ok result, after) ∧
        (result = none ↔ found.2 = none) ∧ (result = none → after.cursor = start.cursor) := by
    intro found left h
    obtain ⟨result, after, hr, hn, hc⟩ := settles found left
    refine ⟨result, after, ?_, hn, hc⟩
    rw [Act.run_bind, h]
    exact hr
  have noted := fun rule place message after asked fails =>
    @failure_noted_operate scene rules count orderly α next adds rule place start after message asked fails
  cases hf : firstTag? scene (if scene.isSimple then [] else rules) start with
  | none =>
    rw [hf] at runs
    obtain ⟨found, left, hr⟩ := runs
    obtain ⟨result, after, ha, _, hc⟩ := answer hr
    refine ⟨fun halt left => by simp [ha, hf], by simp [hf], noted, fun left hn => ?_⟩
    obtain ⟨rfl, rfl⟩ : result = none ∧ after = left := by simpa [ha] using hn
    exact hc rfl
  | some found =>
    rw [hf] at runs
    obtain ⟨fails, lands⟩ := runs
    rcases hj : found.jump scene count.times with ⟨halt | destination, landed⟩
    · have halted : (operate scene rules count pure >>= next).run start = (.error halt, landed) := by
        rw [Act.run_bind, fails halt landed hj]
      exact ⟨fun _ _ => by simp [halted, hf, hj], by simp [hf, hj], noted, fun _ hn => by simp [halted] at hn⟩
    · obtain ⟨mark, left, hr⟩ := lands destination landed hj
      obtain ⟨result, after, ha, hn, hc⟩ := answer hr
      refine ⟨fun _ _ => by simp [ha, hf, hj], ?_, noted, fun left hnone => ?_⟩
      · intro f hmem d l h
        obtain rfl : found = f := by simpa [hf] using hmem
        obtain ⟨rfl, rfl⟩ : destination = d ∧ landed = l := by simpa [hj] using h
        exact ⟨result, after, ha, hn⟩
      · obtain ⟨rfl, rfl⟩ : result = none ∧ after = left := by simpa [ha] using hnone
        exact hc rfl

end Item

namespace Motion

open Item

variable {scene : Scene} {rules : List Rule} {count : Option Number}

lemma exists_run_jump_of_percentage {percent : Number}
    (counts : asksPercentage scene.settings count = some percent)
    (start : Trail) : ∃ d left, (jump scene rules count).run start = (.ok (some d), left) := by
  rw [jump, counts]
  exact ⟨_, _, rfl⟩

lemma withstands_jump (orderly : ∀ rule ∈ rules, rule.Orderly scene)
    (counts : asksPercentage scene.settings count = none) (start : Trail) :
    Withstands (jump scene rules count) scene (count.getD 1).times (if scene.isSimple then []
      else rules) start := by
  rw [jump_eq scene rules counts]
  refine withstands_cursor (withstands_operate orderly ?_ ?_)
  · rintro ⟨mark, _ | destination⟩
    · exact (Act.adds_debug _ _).bind fun _ => (Act.adds_moveTo _).bind fun _ => Act.adds_pure _
    · exact (Act.adds_moveTo _).bind fun _ => Act.adds_pure _
  · rintro ⟨mark, _ | destination⟩ trail
    · exact ⟨none, _, rfl, iff_of_true rfl rfl, fun _ => rfl⟩
    · exact ⟨some destination, _, rfl, iff_of_false (by simp) (by simp), by simp⟩

lemma withstands_resolve {α : Type} {next : Option Region → Act (Option α)} {inner : Bool} {times : Number}
    {start : Trail}
    (orderly : ∀ rule ∈ rules, rule.Orderly { scene with selecting := true })
    (adds : ∀ found, (next found).Adds)
    (settles : ∀ found trail, ∃ result left, (next found).run trail = (.ok result, left) ∧
      (result = none ↔ found = none) ∧ (result = none → left.cursor = trail.cursor)) :
    Withstands (Region.resolve scene rules times inner >>= next) { scene with selecting := true } times.times
      (if scene.isSimple then [] else rules) start := by
  simp only [Region.resolve, bind_assoc, pure_bind]
  refine withstands_cursor (withstands_operate orderly ?_ ?_)
  · intro found
    exact (Act.adds_moveTo _).bind fun _ => adds _
  · rintro ⟨mark, destination⟩ trail
    obtain ⟨result, left, hr, hn, hc⟩ :=
      settles (destination.map (Region.ofEnds scene inner mark)) { trail with cursor := start.cursor }
    exact ⟨result, left, hr, hn.trans Option.map_eq_none_iff, hc⟩

lemma withstands_select {inner : Bool} (orderly : ∀ rule ∈ rules, rule.Orderly
    { scene with selecting := true })
    (start : Trail) :
    Withstands (select scene rules count inner) { scene with selecting := true } (count.getD 1).times
      (if scene.isSimple then [] else rules) start := by
  rw [select, ← bind_pure (Region.resolve _ _ _ _)]
  refine withstands_resolve orderly (fun _ => Act.adds_pure _) fun found trail => ?_
  exact ⟨found, trail, rfl, Iff.rfl, fun _ => rfl⟩

lemma withstands_delete {inner : Bool} (orderly : ∀ rule ∈ rules, rule.Orderly
    { scene with selecting := true })
    (start : Trail) :
    Withstands (delete scene rules count inner) { scene with selecting := true } (count.getD 1).times
      (if scene.isSimple then [] else rules) start := by
  rw [delete]
  refine withstands_resolve orderly ?_ ?_
  · rintro (_ | region)
    · exact Act.adds_pure _
    · exact (Act.adds_moveTo _).bind fun _ => Act.adds_pure _
  · rintro (_ | region) trail
    · exact ⟨none, trail, rfl, Iff.rfl, fun _ => rfl⟩
    · exact ⟨some region, _, rfl, iff_of_false (by simp) (by simp), by simp⟩

lemma cursor_of_run_select {inner : Bool} {start left : Trail} {result : Option Region}
    (h : (select scene rules count inner).run start = (.ok result, left)) : left.cursor = start.cursor := by
  rw [select, Region.resolve, Act.run_bind, Act.run_cursor] at h
  simp only [Act.run_bind] at h
  split at h
  · obtain ⟨_, rfl⟩ := Prod.mk.inj h
    rfl
  · simp at h

end Motion

namespace Item

lemma cursor_of_firstTag? {scene : Scene} {rules : List Rule}
    (keeps : ∀ rule ∈ rules, ∀ trail, ((rule.inspect scene).run trail).2.cursor = trail.cursor)
    {start : Trail}
    {found : Recognised} (h : firstTag? scene rules start = some found) : found.trail.cursor = start.cursor := by
  induction rules generalizing start with
  | nil => simp [firstTag?] at h
  | cons rule rules ih =>
    obtain ⟨hrule, hrules⟩ := List.forall_mem_cons.mp keeps
    have kept : (rule.inspected scene start).2.cursor = start.cursor := by
      rw [← hrule start, Rule.inspected]
      rcases (rule.inspect scene).run start with ⟨(_ | message) | tag, after⟩ <;> rfl
    rw [firstTag?] at h
    rcases hi : rule.inspected scene start with ⟨_ | tag, after⟩ <;> rw [hi] at h kept
    · exact (ih hrules h).trans kept
    · obtain rfl := Option.some.inj h
      exact kept

end Item

namespace Motion

open Item

/-- Of a rule that fails, an error comes out of a command only when it fails in the jump that the command
makes from the first tag. Failing inspections are noted and give no destination, and a command that finds
nothing leaves the cursor where it was. -/
theorem errors_come_only_from_jumps (scene : Scene) (rules : List Rule) (count : Option Number) (inner : Bool)
    (start : Trail)
    (orderly : ∀ rule ∈ rules, ∀ selecting, rule.Orderly { scene with selecting := selecting }) :
    let extending : Scene := { scene with selecting := true }
    let asked := if scene.isSimple then [] else rules
    let times := (count.getD 1).times
    (∀ percent, asksPercentage scene.settings count = some percent →
      ∃ d left, (jump scene rules count).run start = (.ok (some d), left)) ∧
    (asksPercentage scene.settings count = none →
      Withstands (jump scene rules count) scene times asked start) ∧
    Withstands (select scene rules count inner) extending times asked start ∧
    Withstands (delete scene rules count inner) extending times asked start ∧
    (∀ found left, (select scene rules count inner).run start = (.ok found, left) →
      left.cursor = start.cursor) ∧
    ∀ selecting, let seen : Scene := { scene with selecting := selecting }
      (∀ rule ∈ asked, ∀ trail, ((rule.inspect seen).run trail).2.cursor = trail.cursor) →
        ∀ found ∈ firstTag? seen asked start, found.trail.cursor = start.cursor := by
  intro extending asked times
  have extended : ∀ rule ∈ rules, rule.Orderly extending := fun rule hr => orderly rule hr true
  refine ⟨fun percent counts => exists_run_jump_of_percentage counts start, fun counts => ?_,
    withstands_select extended start, withstands_delete extended start,
    fun found left => cursor_of_run_select, ?_⟩
  · exact withstands_jump (fun rule hr => orderly rule hr scene.selecting) counts start
  · intro selecting seen keeps found hf
    exact cursor_of_firstTag? keeps hf

theorem errors_come_only_from_jumps_past_broken_inspection :
    let broken : Playback := { name := "broken", inspectError := some "no tag" }
    let scene := Scene.ofText (.ofString "(x)") "typescript" {} false
    let rules := [broken.rule, Rule.delimiters]
    (∀ rule ∈ rules, ∀ selecting, rule.Orderly { scene with selecting := selecting }) ∧
      ∃ left, (jump scene rules none).run ⟨0, []⟩ = (.ok (some 2), left) ∧
        broken.rule.failure 0 "no tag" ∈ left.journal := by
  intro broken scene rules
  have orderly : ∀ rule ∈ rules, ∀ selecting, rule.Orderly { scene with selecting := selecting } := by
    intro rule hr selecting
    rcases List.mem_cons.mp hr with rfl | hr
    · exact Rule.orderly_playback _ broken
    · exact List.mem_singleton.mp hr ▸ Rule.orderly_delimiters _
  obtain ⟨_, withstands, _⟩ := errors_come_only_from_jumps scene rules none false ⟨0, []⟩ orderly
  have noted := (withstands rfl).notes broken.rule ⟨0, []⟩ "no tag" ⟨0, [.log "broken.getTag"]⟩ .now rfl
  have found : ((jump scene rules none).run ⟨0, []⟩).1 = .ok (some 2) := by rfl
  exact ⟨orderly, _, Prod.ext found rfl, noted⟩

theorem error_of_jump_comes_out :
    let thrower : Playback := { name := "thrower", start := some 0, jumpError := some "broken" }
    let scene := Scene.ofText (.ofString "abc") "typescript" {} false
    let rules := (Rulebook.empty.register "typescript" [thrower.rule]).lookup "typescript"
    ((jump scene rules none).run ⟨0, []⟩).1 = .error (.raised "broken") ∧
      ((select scene rules none false).run ⟨0, []⟩).1 = .error (.raised "broken") ∧
      ((delete scene rules none false).run ⟨0, []⟩).1 = .error (.raised "broken") ∧
      ¬ ∃ found left, (jump scene rules none).run ⟨0, []⟩ = (.ok found, left) := by
  intro thrower scene rules
  refine ⟨rfl, rfl, rfl, ?_⟩
  rintro ⟨found, left, h⟩
  exact absurd (congrArg Prod.fst h) nofun

end Motion

end Counterpart
