import Counterpart.Item
import Counterpart.Proofs.Rule

/-! What the item under the cursor gives: where it starts, and where a jump from it leads. -/

namespace Counterpart

lemma Number.times_natCast {count : Nat} (h : 1 ≤ count) : (Number.finite count).times = .finite count := by
  have floor : (count : Rat).floor = count := Rat.floor_intCast count
  have least : max 1 (count : Int) = count := Int.max_eq_right (Int.ofNat_le.mpr h)
  rw [times, floor, least]
  rfl

lemma KeywordTag.course_once (blocks : List Block) (scene : Scene) (tag : KeywordTag) :
    tag.course blocks scene (Number.times 1) = .ok (Course.follow blocks scene tag none 1) := by
  have once : Number.times 1 = .finite (1 : Nat) := by decide +kernel
  rw [once]
  exact Block.course_natCast blocks scene tag (by decide)

namespace Item

variable {scene : Scene} {rule : Rule} {rules : List Rule} {origin landing : Int} {destination : Option Int}

lemma yields_askRules_known {times : Number} (still : ∀ rule ∈ rules, rule.Still scene)
    (known : Int × Option Int)
    (origin : Int) : (askRules scene times pure (some known) rules).Yields origin (some known) origin := by
  induction rules with
  | nil => exact Act.yields_pure _ _
  | cons rule rules ih =>
    obtain ⟨hrule, hrules⟩ := List.forall_mem_cons.mp still
    obtain ⟨tag, inspects⟩ := hrule origin
    refine (inspects.tryCatch _).bind ?_
    cases tag <;> exact ih hrules

lemma yields_askRules {tag : rule.Tag} {times : Number} (still : ∀ rule ∈ rules, rule.Still scene)
    (inspects : (rule.inspect scene).Yields origin (some tag) origin)
    (jumps : (rule.jump scene tag times).Yields origin destination landing) :
    (askRules scene times pure none (rule :: rules)).Yields origin (some (rule.start tag, destination))
      landing := by
  rw [askRules]
  refine (inspects.tryCatch _).bind ((Act.yields_pure _ _).bind (jumps.bind ((Act.yields_debug _ _ _).bind ?_)))
  exact yields_askRules_known still _ _

lemma yields_operate {tag : rule.Tag} {count : Number} (notSimple : scene.isSimple = false)
    (still : ∀ rule ∈ rules, rule.Still scene)
    (inspects : (rule.inspect scene).Yields origin (some tag) origin)
    (jumps : (rule.jump scene tag count.times).Yields origin destination landing) :
    (operate scene (rule :: rules) count pure).Yields origin (rule.start tag, destination) landing := by
  rw [operate, notSimple]
  exact (yields_askRules still inspects jumps).bind (Act.yields_pure _ _)

lemma yields_askRules_untagged {times : Number}
    (untagged : ∀ rule ∈ rules, (rule.inspect scene).Yields origin none origin) :
    (askRules scene times pure none rules).Yields origin none origin := by
  induction rules with
  | nil => exact Act.yields_pure _ _
  | cons rule rules ih =>
    obtain ⟨hrule, hrules⟩ := List.forall_mem_cons.mp untagged
    exact (hrule.tryCatch _).bind (ih hrules)

lemma yields_askDelimiter_none (h : Delimiter.at? scene origin = none) :
    (askDelimiter scene pure).Yields origin (origin, none) origin := by
  refine (Act.yields_cursor origin).bind ((Delimiter.yields_inspect scene origin origin).bind ?_)
  rw [h]
  exact (Act.yields_pure _ _).bind (Act.yields_pure _ _)

lemma yields_askDelimiter_some {d : Delimiter} (h : Delimiter.at? scene origin = some d) :
    (askDelimiter scene pure).Yields origin (d.start, Delimiter.destination? scene d)
      ((Delimiter.destination? scene d).getD origin) := by
  refine (Act.yields_cursor origin).bind ((Delimiter.yields_inspect scene origin origin).bind ?_)
  rw [h]
  exact (Act.yields_pure _ _).bind ((Delimiter.yields_jump scene d origin).bind (Act.yields_pure _ _))

lemma yields_operate_of_simple {rules : List Rule} {count : Number} {mark : Int} (simple : scene.isSimple = true)
    (asks : (askDelimiter scene pure).Yields origin (mark, destination) landing) :
    (operate scene rules count pure).Yields origin (mark, destination) landing := by
  rw [operate, simple]
  exact (Act.yields_pure _ _).bind asks

lemma yields_operate_untagged {count : Number}
    (untagged : scene.isSimple = false → ∀ rule ∈ rules, (rule.inspect scene).Yields origin none origin)
    (h : Delimiter.at? scene origin = none) :
    (operate scene rules count pure).Yields origin (origin, none) origin := by
  have asks := yields_askDelimiter_none h
  cases simple : scene.isSimple with
  | true => exact yields_operate_of_simple simple asks
  | false =>
    rw [operate, simple]
    exact (yields_askRules_untagged (untagged simple)).bind asks

lemma yields_operate_header {header : Header} {count : Number} (tag : Header.at? scene origin = some header)
    (seen : scene.isSimple = false ∨ Delimiter.at? scene origin = some header.delimiter) :
    (operate scene [Rule.delimiters] count pure).Yields origin
      (header.start, Delimiter.destination? scene header.delimiter)
      ((Delimiter.destination? scene header.delimiter).getD origin) := by
  cases simple : scene.isSimple with
  | false =>
    apply @yields_operate scene Rule.delimiters [] origin _ _ header count simple
    · simp
    · exact tag ▸ Header.yields_inspect scene origin
    · exact Delimiter.yields_jump scene header.delimiter origin
  | true =>
    rcases Header.at?_cases tag with ⟨hd, hs⟩ | ⟨hd, _⟩
    · exact hs ▸ yields_operate_of_simple simple (yields_askDelimiter_some hd)
    · rw [simple, hd] at seen
      simp at seen

lemma yields_operate_delimiter {rules : List Rule} {count : Number} {d : Delimiter}
    (plain : rules = [] ∨ rules = [Rule.delimiters] ∨ scene.isSimple = true)
    (h : Delimiter.at? scene origin = some d) :
    (operate scene rules count pure).Yields origin (d.start, Delimiter.destination? scene d)
      ((Delimiter.destination? scene d).getD origin) := by
  rcases plain with rfl | rfl | simple
  · have none : (if scene.isSimple then [] else []) = ([] : List Rule) := ite_self []
    rw [operate, none]
    exact (Act.yields_pure _ _).bind (yields_askDelimiter_some h)
  · exact yields_operate_header (Header.at?_of_delimiter h) (.inr h)
  · exact yields_operate_of_simple simple (yields_askDelimiter_some h)

lemma yields_operate_keywords {name : String} {blocks : List Block} {tag : KeywordTag} {count : Number}
    {course : Course} (notSimple : scene.isSimple = false) (still : ∀ rule ∈ rules, rule.Still scene)
    (ht : KeywordTag.at? blocks scene origin = some tag) (hc : tag.course blocks scene count.times = .ok course) :
    (operate scene (Rule.keywords name blocks :: rules) count pure).Yields origin
      (tag.start, course.destination? scene tag) ((course.destination? scene tag).getD origin) := by
  apply @yields_operate scene (Rule.keywords name blocks) rules origin _ _ tag count notSimple still
  · exact ht ▸ Rule.yields_inspect_keywords scene name blocks origin
  · exact Block.yields_jump_of_course hc origin

lemma endless_operate_keywords {name : String} {blocks : List Block} {tag : KeywordTag} {count : Number}
    {halt : Halt} (notSimple : scene.isSimple = false) (ht : KeywordTag.at? blocks scene origin = some tag)
    (hc : tag.course blocks scene count.times = .error halt) :
    (operate scene (Rule.keywords name blocks :: rules) count pure).Endless origin := by
  have inspects := Rule.yields_inspect_keywords scene name blocks origin
  rw [ht] at inspects
  have jumps : ((Rule.keywords name blocks).jump scene tag count.times).Endless origin :=
    Block.endless_jump_of_course hc origin
  have asks : (askRules scene count.times pure none (Rule.keywords name blocks :: rules)).Endless origin := by
    rw [askRules]
    exact (inspects.tryCatch _).bind_endless ((Act.yields_pure _ _).bind_endless (jumps.bind _))
  rw [operate, notSimple]
  exact asks.bind _

def Inside (doc : Document) (found : Int × Option Int) : Prop :=
  ∀ destination ∈ found.2, doc.Contains found.1 ∧ doc.Contains destination

lemma settles_askRules {rules : List Rule} {times : Number}
    (reliable : ∀ rule ∈ rules, rule.Reliable scene times)
    {found : Option (Int × Option Int)} (inside : ∀ f ∈ found, Inside scene.document f) (origin : Int) :
    (askRules scene times pure found rules).Settles origin (∀ f ∈ ·, Inside scene.document f)
      (∃ rule ∈ rules, rule.Hangs scene times) := by
  induction rules generalizing found origin with
  | nil => exact (Act.yields_pure _ _).settles inside
  | cons rule rules ih =>
    obtain ⟨hrule, hrules⟩ := List.forall_mem_cons.mp reliable
    obtain ⟨tag, between, inspects, tagged⟩ := hrule.inspectSafely origin
    have behind : ∀ {known : Option (Int × Option Int)},
        (∀ f ∈ known, Inside scene.document f) → ∀ place,
        (askRules scene times pure known rules).Settles place (∀ f ∈ ·, Inside scene.document f)
          (∃ r ∈ rule :: rules, r.Hangs scene times) := fun hf place =>
      (ih hrules hf place).imp fun ⟨r, hr, hangs⟩ => ⟨r, List.mem_cons_of_mem _ hr, hangs⟩
    rw [askRules]
    refine inspects.bind_settles ?_
    cases found with
    | some f => cases tag <;> exact behind inside between
    | none =>
      cases tag with
      | none => exact behind inside between
      | some tag =>
        have hs := hrule.starts (tagged tag rfl)
        have jumps : (rule.jump scene tag times).Settles between (∀ d ∈ ·, scene.document.Contains d)
            (∃ r ∈ rule :: rules, r.Hangs scene times) :=
          (hrule.jumps (tagged tag rfl)).imp fun hangs => ⟨rule, List.mem_cons_self, hangs⟩
        refine (Act.yields_pure _ _).bind_settles (jumps.bind fun destination last hd => ?_)
        refine (Act.yields_debug _ _ last).bind_settles (behind ?_ last)
        rintro f ⟨⟩
        exact fun d h => ⟨hs, hd d h⟩

lemma exists_yields_askDelimiter (scene : Scene) (origin : Int) :
    ∃ found landing, (askDelimiter scene pure).Yields origin found landing ∧ Inside scene.document found := by
  cases h : Delimiter.at? scene origin with
  | none => exact ⟨_, _, yields_askDelimiter_none h, by simp [Inside]⟩
  | some d =>
    refine ⟨_, _, yields_askDelimiter_some h, fun destination hd => ?_⟩
    exact ⟨Delimiter.contains_start h, Delimiter.contains_destination? hd⟩

lemma settles_operate {rules : List Rule} {count : Number}
    (reliable : ∀ rule ∈ rules, rule.Reliable scene count.times) (origin : Int) :
    (operate scene rules count pure).Settles origin (Inside scene.document)
      (∃ rule ∈ rules, rule.Hangs scene count.times) := by
  have asked : ∀ rule ∈ if scene.isSimple then [] else rules, rule ∈ rules := by
    split <;> simp
  have unasked : ∀ f ∈ (none : Option (Int × Option Int)), Inside scene.document f := by simp
  have asks := settles_askRules (fun rule hr => reliable rule (asked rule hr)) unasked origin
  refine (asks.imp fun ⟨rule, hr, hangs⟩ =>
    ⟨rule, asked rule hr, hangs⟩).bind fun found between inside => ?_
  cases found with
  | some found => exact (Act.yields_pure _ _).settles (inside found rfl)
  | none => exact .inl (exists_yields_askDelimiter scene between)

end Item

end Counterpart
