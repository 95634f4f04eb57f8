import Counterpart.Proofs.Item.Calls
import Counterpart.Proofs.Motion

/-! Where motions leave the cursor: at the place that they report, wherever rules have moved it on the way. -/

namespace Counterpart

namespace Act

variable {α β : Type} {hangs : Prop}

def Unfailing (act : Act α) (hangs : Prop) : Prop :=
  ∀ start, (∃ result left, act.run start = (.ok result, left)) ∨ hangs ∧
    ∃ left, act.run start = (.error .endless, left)

def Places (act : Act α) (start : Trail) (place : α → Int) (hangs : Prop) : Prop :=
  (∃ result left, act.run start = (.ok result, left) ∧ left.cursor = place result) ∨
    hangs ∧ ∃ left, act.run start = (.error .endless, left)

lemma unfailing_of_yields {act : Act α} (h : ∀ origin, ∃ result landing, act.Yields origin result landing) :
    act.Unfailing hangs := by
  intro start
  obtain ⟨result, landing, hy⟩ := h start.cursor
  obtain ⟨entries, run⟩ := hy start.journal
  exact .inl ⟨_, _, run⟩

lemma unfailing_pure (a : α) : (pure a : Act α).Unfailing hangs :=
  unfailing_of_yields fun origin => ⟨a, origin, yields_pure origin a⟩

lemma Unfailing.bind {act : Act α} {next : α → Act β} (first : act.Unfailing hangs)
    (second : ∀ a, (next a).Unfailing hangs) : (act >>= next).Unfailing hangs := by
  intro start
  rw [run_bind]
  rcases first start with ⟨a, between, run⟩ | ⟨h, left, run⟩ <;> rw [run]
  · exact second a between
  · exact .inr ⟨h, left, rfl⟩

lemma places_cursor {next : Int → Act α} {start : Trail} {place : α → Int}
    (h : (next start.cursor).Places start place hangs) : (cursor >>= next).Places start place hangs := by
  rw [Places, run_bind, run_cursor]
  exact h

lemma Unfailing.places {act : Act α} {next : α → Act β} (first : act.Unfailing hangs) {start : Trail}
    {place : β → Int}
    (second : ∀ a trail, ∃ b left, (next a).run trail = (.ok b, left) ∧ left.cursor = place b) :
    (act >>= next).Places start place hangs := by
  rw [Places, run_bind]
  rcases first start with ⟨a, between, run⟩ | ⟨h, left, run⟩ <;> rw [run]
  · exact .inl (second a between)
  · exact .inr ⟨h, left, rfl⟩

lemma Places.of_found {act : Act α} {start : Trail} {place : α → Int} (places : act.Places start place hangs)
    {result : α} (found : (act.run start).1.toOption = some result) :
    ∃ left, act.run start = (.ok result, left) ∧ left.cursor = place result := by
  rcases places with ⟨result', left, run, hc⟩ | ⟨_, left, run⟩ <;> rw [run] at found
  · obtain rfl := Option.some.inj found
    exact ⟨left, run, hc⟩
  · contradiction

end Act

namespace Item

variable {scene : Scene} {times : Number} {hangs : Prop}

lemma unfailing_inspectSafely {rule : Rule} (h : rule.Hangs scene times → hangs) :
    (rule.inspectSafely scene).Unfailing hangs := by
  intro start
  rw [Rule.inspectSafely, Act.run_tryCatch]
  rcases hr : (rule.inspect scene).run start with ⟨(_ | message) | tag, after⟩
  · exact .inl ⟨none, _, rfl⟩
  · exact .inr ⟨h ⟨start, after, .inl hr⟩, after, rfl⟩
  · exact .inl ⟨tag, after, rfl⟩

lemma unfailing_jump {rule : Rule} (unfailing : rule.JumpsUnfailingly scene times)
    (h : rule.Hangs scene times → hangs)
    (tag : rule.Tag) : (rule.jump scene tag times).Unfailing hangs := by
  intro start
  rcases hr : (rule.jump scene tag times).run start with ⟨(message | _) | destination, after⟩
  · exact absurd hr (unfailing tag start message after)
  · exact .inr ⟨h ⟨start, after, .inr ⟨tag, hr⟩⟩, after, rfl⟩
  · exact .inl ⟨destination, after, rfl⟩

lemma unfailing_askRules {rules : List Rule} (unfailing : ∀ rule ∈ rules, rule.JumpsUnfailingly scene times)
    (h : ∀ rule ∈ rules, rule.Hangs scene times → hangs) (found : Option (Int × Option Int)) :
    (askRules scene times pure found rules).Unfailing hangs := by
  induction rules generalizing found with
  | nil => exact Act.unfailing_pure found
  | cons rule rules ih =>
    obtain ⟨hrule, hrules⟩ := List.forall_mem_cons.mp unfailing
    obtain ⟨hhang, hhangs⟩ := List.forall_mem_cons.mp h
    have rest := ih hrules hhangs
    rw [askRules]
    refine (unfailing_inspectSafely hhang).bind fun tag => ?_
    cases found with
    | some found => cases tag <;> exact rest (some found)
    | none =>
      cases tag with
      | none => exact rest none
      | some tag =>
        refine (Act.unfailing_pure _).bind fun mark => (unfailing_jump hrule hhang tag).bind fun destination => ?_
        exact (Act.unfailing_of_yields fun origin => ⟨_, _, Act.yields_debug _ _ origin⟩).bind fun _ => rest _

lemma unfailing_operate {rules : List Rule} {count : Number}
    (unfailing : ∀ rule ∈ rules, rule.JumpsUnfailingly scene count.times) :
    (operate scene rules count pure).Unfailing (∃ rule ∈ rules, rule.Hangs scene count.times) := by
  have asked : ∀ rule ∈ if scene.isSimple then [] else rules, rule ∈ rules := by
    split <;> simp
  rw [operate]
  refine (unfailing_askRules (fun rule hr => unfailing rule (asked rule hr))
    (fun rule hr hang => ⟨rule, asked rule hr, hang⟩) none).bind fun found => ?_
  cases found with
  | some found => exact Act.unfailing_pure found
  | none =>
    refine Act.unfailing_of_yields fun origin => ?_
    obtain ⟨found, landing, hy, _⟩ := exists_yields_askDelimiter scene origin
    exact ⟨found, landing, hy⟩

end Item

namespace Motion

open Item

variable {scene : Scene} {rules : List Rule}

lemma places_jump {count : Option Number}
    (unfailing : ∀ rule ∈ rules, rule.JumpsUnfailingly scene (count.getD 1).times) (start : Trail) :
    (jump scene rules count).Places start (fun destination => destination.getD start.cursor)
      (∃ rule ∈ rules, rule.Hangs scene (count.getD 1).times) := by
  cases counts : asksPercentage scene.settings count with
  | some percent =>
    rw [jump, counts]
    exact .inl ⟨_, _, rfl, rfl⟩
  | none =>
    rw [jump_eq scene rules counts]
    refine Act.places_cursor ((unfailing_operate unfailing).places ?_)
    rintro ⟨mark, _ | destination⟩ trail
    · exact ⟨none, _, rfl, rfl⟩
    · exact ⟨some destination, _, rfl, rfl⟩

lemma places_resolve {α : Type} {next : Option Region → Act (Option α)} {count : Number} {inner : Bool}
    {start : Trail} {place : Option α → Int}
    (unfailing : ∀ rule ∈ rules, rule.JumpsUnfailingly { scene with selecting := true } count.times)
    (places : ∀ found trail, trail.cursor = start.cursor →
      ∃ result left, (next found).run trail = (.ok result, left) ∧ left.cursor = place result) :
    (Region.resolve scene rules count inner >>= next).Places start place
      (∃ rule ∈ rules, rule.Hangs { scene with selecting := true } count.times) := by
  simp only [Region.resolve, bind_assoc, pure_bind]
  refine Act.places_cursor ((unfailing_operate unfailing).places fun found trail => ?_)
  exact places _ { trail with cursor := start.cursor } rfl

lemma places_select {count : Option Number}
    (unfailing : ∀ rule ∈ rules, rule.JumpsUnfailingly { scene with selecting := true } (count.getD 1).times)
    (inner : Bool) (start : Trail) :
    (select scene rules count inner).Places start (fun _ => start.cursor)
      (∃ rule ∈ rules, rule.Hangs { scene with selecting := true } (count.getD 1).times) := by
  rw [select, ← bind_pure (Region.resolve scene rules (count.getD 1) inner)]
  exact places_resolve unfailing fun found trail hc => ⟨found, trail, rfl, hc⟩

lemma places_delete {count : Option Number}
    (unfailing : ∀ rule ∈ rules, rule.JumpsUnfailingly { scene with selecting := true } (count.getD 1).times)
    (inner : Bool) (start : Trail) :
    (delete scene rules count inner).Places start (fun region => (region.map Region.start).getD start.cursor)
      (∃ rule ∈ rules, rule.Hangs { scene with selecting := true } (count.getD 1).times) := by
  refine places_resolve unfailing fun found trail hc => ?_
  cases found with
  | none => exact ⟨none, trail, rfl, hc⟩
  | some region => exact ⟨some region, _, rfl, rfl⟩

/-- Motions leave the cursor where they report, whatever rules do to it and whichever inspections fail. A jump
leaves it at its destination, a selection where it was, a deletion where the region begins, and each of them
where it was when nothing is found. Nothing comes out of a motion but such a result, unless it makes a call
that goes on without end. -/
theorem cursor_left_where_reported (scene : Scene) (rules : List Rule) (count : Option Number)
    (unfailing : ∀ rule ∈ rules, ∀ selecting,
      rule.JumpsUnfailingly { scene with selecting := selecting } (count.getD 1).times)
    (inner : Bool) (start : Trail) :
    let hangs := fun selecting =>
      ∃ rule ∈ rules, rule.Hangs { scene with selecting := selecting } (count.getD 1).times
    (jump scene rules count).Places start (fun destination => destination.getD start.cursor)
      (hangs scene.selecting) ∧
      (select scene rules count inner).Places start (fun _ => start.cursor) (hangs true) ∧
      (delete scene rules count inner).Places start (fun region => (region.map Region.start).getD start.cursor)
        (hangs true) := by
  intro hangs
  have extending : ∀ rule ∈ rules,
      rule.JumpsUnfailingly { scene with selecting := true } (count.getD 1).times :=
    fun rule hr => unfailing rule hr true
  exact ⟨places_jump (fun rule hr => unfailing rule hr scene.selecting) start,
    places_select extending inner start, places_delete extending inner start⟩

theorem cursor_left_where_reported_of_restless :
    let scene := Scene.ofText (.ofString "0123(5)") "typescript" {} false
    let broken : Playback := { name := "broken", inspectError := some "out of order" }
    let restless : Rule := {
      name := "restless"
      Tag := Unit
      start := fun _ => 1
      inspect := fun _ => do
        Act.moveTo 40
        return some ()
      jump := fun _ _ _ => do
        Act.moveTo (-3)
        return some 4 }
    let rules := [broken.rule, restless, Rule.shell, Rule.delimiters]
    (∀ rule ∈ rules, ∀ selecting,
      rule.JumpsUnfailingly { scene with selecting := selecting } (Number.times 1)) ∧
      (∃ left, (jump scene rules none).run ⟨0, []⟩ = (.ok (some 4), left) ∧ left.cursor = 4) ∧
      (∃ left, (select scene rules none true).run ⟨0, []⟩ = (.ok (some ⟨2, 3, true⟩), left) ∧
        left.cursor = 0) ∧
      ∃ left, (delete scene rules none true).run ⟨0, []⟩ = (.ok (some ⟨2, 3, true⟩), left) ∧
        left.cursor = 2 := by
  intro scene broken restless rules
  have unfailing : ∀ rule ∈ rules, ∀ selecting,
      rule.JumpsUnfailingly { scene with selecting := selecting } (Number.times 1) := by
    simp only [rules, List.forall_mem_cons, List.not_mem_nil, false_implies, implies_true, and_true]
    exact ⟨fun _ => Rule.jumpsUnfailingly_playback _ _ rfl,
      fun _ => Rule.jumpsUnfailingly_of_lands fun _ _ => ⟨some 4, _, rfl⟩,
      fun _ => Rule.jumpsUnfailingly_keywords _ _ _ _, fun _ => Rule.jumpsUnfailingly_delimiters _ _⟩
  obtain ⟨jumps, selects, deletes⟩ := cursor_left_where_reported scene rules none unfailing true ⟨0, []⟩
  exact ⟨unfailing, jumps.of_found (by decide +kernel), selects.of_found (by decide +kernel),
    deletes.of_found (by decide +kernel)⟩

end Motion

end Counterpart
