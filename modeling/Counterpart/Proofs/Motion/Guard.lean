import Counterpart.Proofs.Motion
import Counterpart.Proofs.Region.Between

/-! The guard near the end of a line: brackets and quotes have no partners there, while keyword lines keep
theirs. -/

namespace Counterpart

open Rulebook

variable {scene : Scene} {cursor : Int}

lemma Delimiter.at?_of_guarded (guarded : scene.isGuarded cursor = true) : at? scene cursor = none := by
  rw [at?, if_pos guarded]

lemma Header.at?_of_guarded (guarded : scene.isGuarded cursor = true) : at? scene cursor = none := by
  rw [at?, if_pos guarded]

namespace Scene

def ReadsKeyword (scene : Scene) (cursor : Int) : Prop :=
  scene.isSimple = false ∧
    ∃ blocks tag, (scene.document.language, blocks) ∈ keywordLanguages ∧
      KeywordTag.at? blocks scene cursor = some tag

def unguarded (scene : Scene) : Scene :=
  { scene with settings := { scene.settings with lineEndGuardLanguages := [] } }

end Scene

namespace Item

lemma yields_operate_guarded (guarded : scene.isGuarded cursor = true) (unread : ¬ scene.ReadsKeyword cursor)
    (count : Number) :
    (operate scene (standard.lookup scene.document.language) count pure).Yields cursor (cursor, none) cursor := by
  refine yields_operate_untagged (fun notSimple => ?_) (Delimiter.at?_of_guarded guarded)
  have headers : (Rule.delimiters.inspect scene).Yields cursor none cursor :=
    Header.at?_of_guarded guarded ▸ Header.yields_inspect scene cursor
  rcases lookup_standard_cases scene.document.language with ⟨name, blocks, listed, hl⟩ | hl | hl <;> rw [hl]
  · refine List.forall_mem_cons.mpr ⟨?_, List.forall_mem_singleton.mpr headers⟩
    have untagged : KeywordTag.at? blocks scene cursor = none := by
      rw [Option.eq_none_iff_forall_ne_some]
      exact fun tag ht => unread ⟨notSimple, blocks, tag, listed, ht⟩
    exact untagged ▸ Rule.yields_inspect_keywords scene name blocks cursor
  · exact List.forall_mem_singleton.mpr headers
  · simp

lemma operate_keyword_alike (reads : scene.ReadsKeyword cursor) (count : Number) :
    let rules := standard.lookup scene.document.language
    (∃ found landing, (operate scene rules count pure).Yields cursor found landing ∧
      (operate scene.unguarded rules count pure).Yields cursor found landing) ∨
    count.times.hops = none ∧ (operate scene rules count pure).Endless cursor ∧
      (operate scene.unguarded rules count pure).Endless cursor := by
  intro rules
  obtain ⟨notSimple, blocks, tag, listed, ht⟩ := reads
  obtain ⟨name, hl⟩ : ∃ name, rules = [Rule.keywords name blocks, Rule.delimiters] :=
    lookup_of_keywordLanguages listed
  have free : tag.course blocks scene.unguarded count.times = tag.course blocks scene count.times :=
    KeywordTag.course_settings blocks scene _ tag count.times
  rw [hl]
  obtain ⟨hops, hc⟩ | ⟨unreachable, hc⟩ := KeywordTag.course_cases blocks scene tag count.times
  · exact .inl ⟨_, _, yields_operate_keywords notSimple (Rule.still_delimiters scene) ht hc,
      yields_operate_keywords notSimple (Rule.still_delimiters scene.unguarded) ht (free.trans hc)⟩
  · exact .inr ⟨unreachable, endless_operate_keywords notSimple ht hc,
      endless_operate_keywords notSimple ht (free.trans hc)⟩

end Item

namespace Motion

/-- At a guarded column no rule finds anything, except where a keyword line is read: there the guard is not
asked, and what is found, or looked for without end, is the same as without it. -/
theorem guard_stops_all_but_keywords (text : Text) (language : String) (settings : Settings) (selecting : Bool)
    (cursor : Int) (listed : settings.lineEndGuardLanguages.contains language = true)
    (column : settings.lineEndGuardOffset.spans cursor ((Document.ofText text language).lineEnd cursor) = true) :
    let scene := Scene.ofText text language settings selecting
    let rules := standard.lookup language
    (¬ scene.ReadsKeyword cursor → (jump scene rules none).Yields cursor none cursor ∧
      ∀ count inner, (Region.resolve scene rules count inner).Yields cursor none cursor) ∧
    (scene.ReadsKeyword cursor →
      (∃ destination landing, (jump scene rules none).Yields cursor destination landing ∧
        (jump scene.unguarded rules none).Yields cursor destination landing) ∧
      ∀ count inner,
        (∃ region, (Region.resolve scene rules count inner).Yields cursor region cursor ∧
          (Region.resolve scene.unguarded rules count inner).Yields cursor region cursor) ∨
        count.times.hops = none ∧ (Region.resolve scene rules count inner).Endless cursor ∧
          (Region.resolve scene.unguarded rules count inner).Endless cursor) := by
  intro scene rules
  let extending : Scene := { scene with selecting := true }
  constructor
  · intro unread
    have guarded : scene.isGuarded cursor = true := Bool.and_eq_true_iff.mpr ⟨listed, column⟩
    have operates : (Item.operate scene rules 1 pure).Yields cursor (cursor, none) cursor :=
      Item.yields_operate_guarded guarded unread 1
    refine ⟨@yields_jump scene rules none cursor cursor (cursor, none) rfl operates, fun count inner => ?_⟩
    exact Region.yields_resolve (@Item.yields_operate_guarded extending cursor guarded unread count)
  · intro reads
    constructor
    · have once : (Number.times 1).hops ≠ none := by decide +kernel
      obtain ⟨found, landing, hs, hu⟩ := (@Item.operate_keyword_alike scene cursor reads 1).resolve_right
        fun ⟨unreachable, _⟩ => once unreachable
      exact ⟨_, _, yields_jump rfl hs, yields_jump rfl hu⟩
    · intro count inner
      rcases @Item.operate_keyword_alike extending cursor reads count with ⟨found, landing, hs, hu⟩
        | ⟨h, hs, hu⟩
      · exact .inl ⟨_, Region.yields_resolve hs, Region.yields_resolve hu⟩
      · exact .inr ⟨h, Region.endless_resolve hs, Region.endless_resolve hu⟩

theorem guard_stops_bracket_in_conditional :
    let settings : Settings := { lineEndGuardLanguages := ["shellscript"] }
    let scene := Scene.ofText (.ofString "if x\n  (a)\nfi") "shellscript" settings false
    let rules := standard.lookup "shellscript"
    settings.lineEndGuardLanguages.contains "shellscript" = true ∧
      settings.lineEndGuardOffset.spans 9 (scene.document.lineEnd 9) = true ∧ ¬ scene.ReadsKeyword 9 ∧
      (jump scene rules none).Yields 9 none 9 ∧ (Region.resolve scene rules 1 true).Yields 9 none 9 := by
  intro settings scene rules
  have column : settings.lineEndGuardOffset.spans 9 (scene.document.lineEnd 9) = true := by decide +kernel
  have unread : ¬ scene.ReadsKeyword 9 := by
    rintro ⟨_, blocks, tag, listed, ht⟩
    have language : scene.document.language = "shellscript" := rfl
    have shell : blocks = Block.shell := by simpa [keywordLanguages, language] using listed
    have untagged : KeywordTag.at? Block.shell scene 9 = none := by decide +kernel
    rw [shell, untagged] at ht
    contradiction
  have listed : settings.lineEndGuardLanguages.contains "shellscript" = true := by decide
  obtain ⟨jumps, resolves⟩ :=
    (guard_stops_all_but_keywords _ "shellscript" settings false 9 listed column).1 unread
  exact ⟨listed, column, unread, jumps, resolves 1 true⟩

theorem guard_passes_keyword_line :
    let settings : Settings := { lineEndGuardLanguages := ["shellscript"] }
    let scene := Scene.ofText (.ofString "if x\nfi") "shellscript" settings false
    let rules := standard.lookup "shellscript"
    settings.lineEndGuardLanguages.contains "shellscript" = true ∧
      settings.lineEndGuardOffset.spans 3 (scene.document.lineEnd 3) = true ∧
      (jump scene rules none).Yields 3 (some 5) 5 ∧ ¬ (jump scene rules none).Yields 3 none 3 := by
  intro settings scene rules
  let tag : KeywordTag := ⟨⟨0, .opening⟩, 0, 0⟩
  obtain ⟨ht, reached⟩ : KeywordTag.at? Block.shell scene 3 = some tag ∧
      (Course.follow Block.shell scene tag none 1).destination? scene tag = some 5 := by
    decide +kernel
  have operates : (Item.operate scene rules 1 pure).Yields 3 _ _ :=
    Item.yields_operate_keywords (by decide +kernel) (Rule.still_delimiters scene) ht (tag.course_once _ scene)
  have jumps : (jump scene rules none).Yields 3 (some 5) 5 := by
    have hy := @yields_jump scene rules none _ _ _ rfl operates
    rwa [reached] at hy
  refine ⟨by decide, by decide +kernel, jumps, fun stays => ?_⟩
  exact absurd (jumps.unique stays).1 (by decide)

end Motion

end Counterpart
