import Counterpart.Proofs.Motion
import Mathlib.Data.List.Forall2

/-! The answers of rules: what a single jump from the item under the cursor finds, as a function of the cursor. -/

namespace Counterpart

/-- Where the item at an offset starts, and where a single jump from it leads. -/
abbrev Answer := Scene → Int → Option (Int × Option Int)

namespace Header

def answer? : Answer := fun scene offset =>
  (at? scene offset).map fun header => (header.start, Delimiter.destination? scene header.delimiter)

end Header

namespace KeywordTag

def answer? (blocks : List Block) : Answer := fun scene offset =>
  (at? blocks scene offset).map fun tag =>
    (tag.start, (Course.follow blocks scene tag none 1).destination? scene tag)

end KeywordTag

namespace Rule

def Answers (rule : Rule) (answer? : Answer) : Prop :=
  ∀ scene origin,
    answer? scene origin = none ∧ (rule.inspect scene).Yields origin none origin ∨
      ∃ tag destination landing, answer? scene origin = some (rule.start tag, destination) ∧
        (rule.inspect scene).Yields origin (some tag) origin ∧
          (rule.jump scene tag 1).Yields origin destination landing

lemma answers_delimiters : delimiters.Answers Header.answer? := by
  intro scene origin
  have inspects := Header.yields_inspect scene origin
  rw [Header.answer?]
  cases hh : Header.at? scene origin with
  | none => exact .inl ⟨rfl, hh ▸ inspects⟩
  | some header =>
    exact .inr ⟨header, _, _, rfl, hh ▸ inspects, Delimiter.yields_jump scene header.delimiter origin⟩

lemma answers_keywords (name : String) (blocks : List Block) :
    (keywords name blocks).Answers (KeywordTag.answer? blocks) := by
  intro scene origin
  have inspects := yields_inspect_keywords scene name blocks origin
  rw [KeywordTag.answer?]
  cases ht : KeywordTag.at? blocks scene origin with
  | none => exact .inl ⟨rfl, ht ▸ inspects⟩
  | some tag =>
    have hc : tag.course blocks scene 1 = .ok (Course.follow blocks scene tag none 1) := rfl
    exact .inr ⟨tag, _, _, rfl, ht ▸ inspects, Block.yields_jump_of_course hc origin⟩

end Rule

namespace Rulebook

lemma exists_answers_standard (grammar : String) :
    ∃ answers : List Answer, List.Forall₂ Rule.Answers (standard.lookup grammar) answers ∧
      ∀ answer? ∈ answers, answer? = Header.answer? ∨ ∃ blocks, answer? = KeywordTag.answer? blocks := by
  rcases lookup_standard_cases grammar with ⟨name, blocks, _, hl⟩ | hl | hl <;> rw [hl]
  · refine ⟨_, .cons (Rule.answers_keywords name blocks) (.cons Rule.answers_delimiters .nil), ?_⟩
    exact List.forall_mem_cons.mpr ⟨.inr ⟨blocks, rfl⟩, List.forall_mem_singleton.mpr (.inl rfl)⟩
  · exact ⟨_, .cons Rule.answers_delimiters .nil, List.forall_mem_singleton.mpr (.inl rfl)⟩
  · exact ⟨[], .nil, by simp⟩

end Rulebook

namespace Delimiter

def answer (scene : Scene) (offset : Int) : Int × Option Int :=
  match at? scene offset with
  | none => (offset, none)
  | some d => (d.start, destination? scene d)

end Delimiter

namespace Item

def found (scene : Scene) (answers : List Answer) (offset : Int) : Int × Option Int :=
  ((if scene.isSimple then [] else answers).findSome? fun answer? => answer? scene offset).getD
    (Delimiter.answer scene offset)

variable {rules : List Rule} {answers : List Answer} (h : List.Forall₂ Rule.Answers rules answers)
  (scene : Scene)
include h

lemma still_of_answers : ∀ rule ∈ rules, rule.Still scene := by
  induction h with
  | nil => simp
  | cons answers _ ih =>
    refine List.forall_mem_cons.mpr ⟨fun origin => ?_, ih⟩
    rcases answers scene origin with ⟨_, inspects⟩ | ⟨tag, _, _, _, inspects, _⟩
    · exact ⟨none, inspects⟩
    · exact ⟨some tag, inspects⟩

lemma exists_yields_askRules_answers (origin : Int) :
    ∃ landing, (askRules scene 1 pure none rules).Yields origin
      (answers.findSome? fun answer? => answer? scene origin) landing ∧
        ((answers.findSome? fun answer? => answer? scene origin) = none → landing = origin) := by
  induction h with
  | nil => exact ⟨origin, Act.yields_pure _ _, fun _ => rfl⟩
  | cons answers rest ih =>
    rw [askRules, List.findSome?_cons]
    rcases answers scene origin with ⟨hn, inspects⟩ | ⟨tag, destination, landing, hs, inspects, jumps⟩
    · obtain ⟨landing, asks, stays⟩ := ih
      rw [hn]
      exact ⟨landing, (inspects.tryCatch _).bind asks, stays⟩
    · rw [hs]
      exact ⟨landing, yields_askRules (still_of_answers rest scene) inspects jumps, by simp⟩

lemma exists_yields_operate_found (origin : Int) :
    ∃ landing, (operate scene rules 1 pure).Yields origin (found scene answers origin) landing := by
  have asked : List.Forall₂ Rule.Answers (if scene.isSimple then [] else rules)
      (if scene.isSimple then [] else answers) := by
    split
    · exact .nil
    · exact h
  obtain ⟨landing, asks, stays⟩ := exists_yields_askRules_answers asked scene origin
  rw [operate, found]
  cases hf : (if scene.isSimple then [] else answers).findSome? fun answer? => answer? scene origin with
  | some known =>
    rw [hf] at asks
    exact ⟨landing, asks.bind (Act.yields_pure _ _)⟩
  | none =>
    obtain rfl := stays hf
    rw [hf] at asks
    rw [Option.getD_none, Delimiter.answer]
    cases hd : Delimiter.at? scene landing with
    | none => exact ⟨_, asks.bind (yields_askDelimiter_none hd)⟩
    | some d => exact ⟨_, asks.bind (yields_askDelimiter_some hd)⟩

end Item

end Counterpart
