import Counterpart.Proofs.Block.Lap
import Counterpart.Proofs.Delimiter.Header
import Counterpart.Proofs.Delimiter.Reach
import Counterpart.Rulebook.Standard

/-! What a list of rules may rely on: rules that answer alike each time and stay in the document. -/

namespace Counterpart

namespace Rule

/-- A rule of which some inspection, or some jump of so many times, goes on without end. -/
def Hangs (rule : Rule) (scene : Scene) (times : Number) : Prop :=
  ∃ trail left, (rule.inspect scene).run trail = (.error .endless, left) ∨
    ∃ tag, (rule.jump scene tag times).run trail = (.error .endless, left)

/-- A rule whose answers depend on the cursor alone, whose jumps of so many times raise no error, and which reports
offsets of the document only. Its inspection may fail, and may move the cursor. -/
structure Reliable (rule : Rule) (scene : Scene) (times : Number) : Prop where
  inspects : ∀ origin, ∃ landing, (∃ tag, (rule.inspect scene).Yields origin tag landing) ∨
    ∃ message, (rule.inspect scene).Raises origin message landing
  starts : ∀ {origin landing tag}, (rule.inspect scene).Yields origin (some tag) landing →
    scene.document.Contains (rule.start tag)
  jumps : ∀ {origin landing tag}, (rule.inspect scene).Yields origin (some tag) landing →
    (rule.jump scene tag times).Settles landing (∀ d ∈ ·, scene.document.Contains d) (rule.Hangs scene times)

lemma Reliable.inspectSafely {rule : Rule} {scene : Scene} {times : Number} (reliable : rule.Reliable scene times)
    (origin : Int) :
    ∃ tag landing, (rule.inspectSafely scene).Yields origin tag landing ∧
      ∀ t ∈ tag, (rule.inspect scene).Yields origin (some t) landing := by
  obtain ⟨landing, ⟨tag, hy⟩ | ⟨message, hr⟩⟩ := reliable.inspects origin
  · refine ⟨tag, landing, hy.tryCatch _, ?_⟩
    rintro t rfl
    exact hy
  · refine ⟨none, landing, hr.tryCatch ?_, by simp⟩
    exact (Act.yields_cursor _).bind ((Act.yields_record _ _).bind (Act.yields_pure _ _))

def Still (rule : Rule) (scene : Scene) : Prop :=
  ∀ origin, ∃ tag, (rule.inspect scene).Yields origin tag origin

variable (scene : Scene) (times : Number)

lemma still_delimiters : ∀ rule ∈ [delimiters], rule.Still scene :=
  List.forall_mem_singleton.mpr fun origin => ⟨_, Header.yields_inspect scene origin⟩

lemma reliable_delimiters : delimiters.Reliable scene times where
  inspects origin := ⟨origin, .inl ⟨_, Header.yields_inspect scene origin⟩⟩
  starts := by
    intro origin landing header tagged
    have tag : Header.at? scene origin = some header := ((Header.yields_inspect scene origin).unique tagged).1
    change scene.document.Contains header.start
    rcases Header.at?_cases tag with ⟨hd, hs⟩ | ⟨_, hs, _⟩
    · rw [hs]
      exact Delimiter.contains_start hd
    · rw [hs]
      exact Document.contains_natCast (Document.contentOfLine_le_length _)
  jumps := by
    intro origin landing header _
    refine (Delimiter.yields_jump scene header.delimiter landing).settles fun destination hd => ?_
    exact Delimiter.contains_destination? hd

lemma not_hangs_delimiters : ¬ delimiters.Hangs scene times := by
  rintro ⟨trail, left, inspects | ⟨header, jumps⟩⟩
  · obtain ⟨entries, run⟩ := Header.yields_inspect scene trail.cursor trail.journal
    cases inspects.symm.trans run
  · obtain ⟨entries, run⟩ := Delimiter.yields_jump scene header.delimiter trail.cursor trail.journal
    cases jumps.symm.trans run

lemma yields_inspect_keywords (name : String) (blocks : List Block) (origin : Int) :
    ((keywords name blocks).inspect scene).Yields origin (KeywordTag.at? blocks scene origin) origin :=
  (Act.yields_cursor origin).bind (Act.yields_pure _ _)

lemma settles_jump_keywords (blocks : List Block) (tag : KeywordTag) (origin : Int) :
    (tag.jump blocks scene times).Settles origin (∀ d ∈ ·, scene.document.Contains d)
    (times.hops = none) := by
  obtain ⟨hops, course⟩ | ⟨unreachable, course⟩ := KeywordTag.course_cases blocks scene tag times
  · exact (Block.yields_jump_of_course course origin).settles fun _ hd => Block.contains_destination? hd
  · exact .inr ⟨unreachable, Block.endless_jump_of_course course origin⟩

lemma reliable_keywords (name : String) (blocks : List Block) : (keywords name blocks).Reliable scene times where
  inspects origin := ⟨origin, .inl ⟨_, yields_inspect_keywords scene name blocks origin⟩⟩
  starts := by
    intro origin landing tag tagged
    have hk : KeywordTag.at? blocks scene origin = some tag :=
      ((yields_inspect_keywords scene name blocks origin).unique tagged).1
    obtain ⟨keyword, _, rfl⟩ := Option.map_eq_some_iff.mp hk
    change scene.document.Contains (KeywordTag.ofLine scene.document _ keyword).start
    rw [KeywordTag.ofLine]
    dsimp only
    split
    · exact Document.contains_natCast (Document.endOfLine_le_length _)
    · exact Document.contains_natCast (Document.contentOfLine_le_length _)
  jumps := by
    intro origin landing (tag : KeywordTag) _
    obtain settled | ⟨unreachable, endless⟩ := settles_jump_keywords scene times blocks tag landing
    · exact .inl settled
    · obtain ⟨left, run⟩ := endless []
      exact .inr ⟨⟨_, left, .inr ⟨tag, run⟩⟩, endless⟩

lemma unreachable_of_hangs_keywords {name : String} {blocks : List Block}
    (hangs : (keywords name blocks).Hangs scene times) : times.hops = none := by
  obtain ⟨trail, left, inspects | ⟨tag, jumps⟩⟩ := hangs
  · obtain ⟨entries, run⟩ := yields_inspect_keywords scene name blocks trail.cursor trail.journal
    cases inspects.symm.trans run
  · obtain ⟨destination, last, yields, _⟩ | ⟨unreachable, _⟩ :=
      settles_jump_keywords scene times blocks tag trail.cursor
    · obtain ⟨entries, run⟩ := yields trail.journal
      cases jumps.symm.trans run
    · exact unreachable

end Rule

namespace Rulebook

universe u

lemma lookup_registerAll {ρ : Type u} (book : Rulebook ρ) (grammars : List String) (other : String)
    (rules : List ρ) :
    (book.registerAll grammars rules).lookup other = if other ∈ grammars then rules else book.lookup other := by
  induction grammars generalizing book with
  | nil => rfl
  | cons grammar grammars ih =>
    change ((book.register grammar rules).registerAll grammars rules).lookup other = _
    rw [ih, lookup_register]
    by_cases hm : other ∈ grammars
    · simp [hm]
    · simp [hm]

def keywordLanguages : List (String × List Block) :=
  [("shellscript", Block.shell), ("lua", Block.lua), ("ruby", Block.ruby)]

lemma lookup_of_keywordLanguages {language : String} {blocks : List Block}
    (h : (language, blocks) ∈ keywordLanguages) :
    ∃ name, standard.lookup language = [.keywords name blocks, .delimiters] := by
  simp only [keywordLanguages, List.mem_cons, List.not_mem_nil, or_false, Prod.mk.injEq] at h
  rcases h with ⟨rfl, rfl⟩ | ⟨rfl, rfl⟩ | ⟨rfl, rfl⟩
  · exact ⟨"shell", rfl⟩
  · exact ⟨"lua", rfl⟩
  · exact ⟨"ruby", rfl⟩

lemma lookup_standard_cases (language : String) :
    (∃ name blocks, (language, blocks) ∈ keywordLanguages ∧
        standard.lookup language = [.keywords name blocks, .delimiters]) ∨
      standard.lookup language = [.delimiters] ∨ standard.lookup language = [] := by
  by_cases hk : ∃ blocks, (language, blocks) ∈ keywordLanguages
  · obtain ⟨blocks, hm⟩ := hk
    obtain ⟨name, hl⟩ := lookup_of_keywordLanguages hm
    exact .inl ⟨name, blocks, hm, hl⟩
  · have other : ∀ {grammar blocks}, (grammar, blocks) ∈ keywordLanguages → language ≠ grammar := by
      rintro grammar blocks hm rfl
      exact hk ⟨blocks, hm⟩
    have ruby := @other "ruby" Block.ruby (by simp [keywordLanguages])
    have lua := @other "lua" Block.lua (by simp [keywordLanguages])
    have shell := @other "shellscript" Block.shell (by simp [keywordLanguages])
    rw [standard, lookup_register, if_neg ruby, lookup_register, if_neg lua, lookup_register, if_neg shell,
      lookup_registerAll]
    split
    · exact .inr (.inl rfl)
    · exact .inr (.inr rfl)

lemma standard_cases {grammar : String} {rule : Rule} (h : rule ∈ standard.lookup grammar) :
    rule = .delimiters ∨ ∃ name blocks, rule = .keywords name blocks := by
  rcases lookup_standard_cases grammar with ⟨name, blocks, _, hl⟩ | hl | hl <;> rw [hl] at h
  · rcases List.mem_cons.mp h with rfl | hd
    · exact .inr ⟨name, blocks, rfl⟩
    · exact .inl (List.mem_singleton.mp hd)
  · exact .inl (List.mem_singleton.mp h)
  · contradiction

lemma reliable_standard (scene : Scene) (times : Number) {grammar : String} {rule : Rule}
    (h : rule ∈ standard.lookup grammar) : rule.Reliable scene times := by
  rcases standard_cases h with rfl | ⟨name, blocks, rfl⟩
  · exact Rule.reliable_delimiters scene times
  · exact Rule.reliable_keywords scene times name blocks

lemma unreachable_of_hangs {scene : Scene} {times : Number} {grammar : String} {rule : Rule}
    (h : rule ∈ standard.lookup grammar) (hangs : rule.Hangs scene times) : times.hops = none := by
  rcases standard_cases h with rfl | ⟨name, blocks, rfl⟩
  · exact absurd hangs (Rule.not_hangs_delimiters scene times)
  · exact Rule.unreachable_of_hangs_keywords scene times hangs

end Rulebook

end Counterpart
