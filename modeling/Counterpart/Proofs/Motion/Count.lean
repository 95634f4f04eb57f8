import Counterpart.Proofs.Motion

namespace Counterpart

namespace Motion

open Block

variable {blocks : List Block} {scene : Scene} {cursor : Int} {tag : KeywordTag}

def landing (blocks : List Block) (scene : Scene) (cursor : Int) (count : Nat) : Int :=
  let line := scene.document.lineAt cursor
  match counterpartLine? blocks scene line with
  | none => cursor
  | some _ => scene.document.contentOfLine ((hop blocks scene)^[count] line)

lemma landing_of_none (h : counterpartLine? blocks scene (scene.document.lineAt cursor) = none) (count : Nat) :
    landing blocks scene cursor count = cursor := by
  rw [landing, h]

lemma landing_of_some {next : Nat} (h : counterpartLine? blocks scene (scene.document.lineAt cursor) = some next)
    (count : Nat) : landing blocks scene cursor count =
      scene.document.contentOfLine ((hop blocks scene)^[count] (scene.document.lineAt cursor)) := by
  rw [landing, h]

section

variable (ht : tagOfLine? blocks scene (scene.document.lineAt cursor) = some tag)
include ht

lemma lineAt_landing (count : Nat) : scene.document.lineAt (landing blocks scene cursor count) =
    (hop blocks scene)^[count] (scene.document.lineAt cursor) := by
  cases hc : counterpartLine? blocks scene (scene.document.lineAt cursor) with
  | none => rw [landing_of_none hc, Function.iterate_fixed (hop_of_none hc)]
  | some next =>
    obtain ⟨after, ha⟩ := tagOfLine?_hop ht count
    obtain ⟨keyword, hk, _⟩ := Option.map_eq_some_iff.mp ha
    rw [landing_of_some hc, Document.lineAt_contentOfLine (lt_lineCount_of_keyword hk)]

lemma landing_add (m n : Nat) :
    landing blocks scene (landing blocks scene cursor m) n = landing blocks scene cursor (m + n) := by
  have between := lineAt_landing ht m
  cases hc : counterpartLine? blocks scene (scene.document.lineAt cursor) with
  | none => rw [landing_of_none hc, landing_of_none hc, landing_of_none hc]
  | some next =>
    rw [landing_of_some hc (m + n), Nat.add_comm, Function.iterate_add_apply]
    cases hs : counterpartLine? blocks scene (scene.document.lineAt (landing blocks scene cursor m)) with
    | none =>
      rw [landing_of_none hs, landing_of_some hc]
      rw [between] at hs
      rw [Function.iterate_fixed (hop_of_none hs)]
    | some further => rw [landing_of_some hs, between]

lemma yields_jump_keyword (listed : (scene.document.language, blocks) ∈ Rulebook.keywordLanguages)
    (notSimple : scene.isSimple = false) (placing : scene.selecting = false)
    (unshared : scene.settings.percentageJump = false) {count : Nat} (h : 1 ≤ count)
    (ends : count ≤ exactThreshold ∨ 0 < (Course.follow blocks scene tag none count).left) :
    ∃ answer, (jump scene (Rulebook.standard.lookup scene.document.language)
      (some (.finite count))).Yields cursor
      answer (landing blocks scene cursor count) := by
  obtain ⟨name, hl⟩ := Rulebook.lookup_of_keywordLanguages listed
  have counts : asksPercentage scene.settings (some (.finite count)) = none := by simp [asksPercentage, unshared]
  obtain ⟨course, hc, reached, _⟩ := exists_course ends
  rw [← Number.times_natCast h] at hc
  have operates := @Item.yields_operate_keywords scene [Rule.delimiters] cursor name blocks tag (.finite count) _
    notSimple (Rule.still_delimiters scene) ht hc
  rw [← hl, destination?_placing placing, reached, reached_follow_none ht h] at operates
  have jumps := yields_jump counts operates
  cases hn : counterpartLine? blocks scene (scene.document.lineAt cursor) with
  | none =>
    rw [hn] at jumps
    rw [landing_of_none hn]
    exact ⟨_, jumps⟩
  | some next =>
    rw [hn] at jumps
    rw [landing_of_some hn]
    exact ⟨_, jumps⟩

end

/-- Counts add up on a keyword line: a jump by one count and then a jump by another lead where a single jump
by both counts together leads, also when the block is broken and the counterpart of some line is missing. In a
closed block this is so as long as counting gets to both counts together: from there on the single jump goes
round for ever. -/
theorem counts_add_up (scene : Scene) (blocks : List Block)
    (listed : (scene.document.language, blocks) ∈ Rulebook.keywordLanguages) (notSimple : scene.isSimple = false)
    (placing : scene.selecting = false) (unshared : scene.settings.percentageJump = false) (cursor : Int)
    (tag : KeywordTag) (found : KeywordTag.at? blocks scene cursor = some tag) (m n : Nat) (hm : 1 ≤ m)
    (hn : 1 ≤ n) :
    let jumps := fun count : Nat =>
      jump scene (Rulebook.standard.lookup scene.document.language) (some (.finite count))
    (m + n ≤ exactThreshold ∨ scene.document.lineCount ≤ exactThreshold ∧
      Course.BreaksOff blocks scene tag →
      ∃ first second whole between last, (jumps m).Yields cursor first between ∧
        (jumps n).Yields between second last ∧ (jumps (m + n)).Yields cursor whole last) ∧
    (exactThreshold < m + n → ¬ Course.BreaksOff blocks scene tag → (jumps (m + n)).Endless cursor) := by
  intro jumps
  have ht : tagOfLine? blocks scene (scene.document.lineAt cursor) = some tag := found
  obtain ⟨after, ha⟩ := tagOfLine?_hop ht m
  have both : 1 ≤ m + n := Nat.le_add_right_of_le hm
  constructor
  · intro ends
    have reach : ∀ {place : KeywordTag}, (Course.BreaksOff blocks scene tag →
        Course.BreaksOff blocks scene place) →
        ∀ count ≤ m + n, count ≤ exactThreshold ∨
          0 < (Course.follow blocks scene place none count).left := by
      intro place breaks count hle
      rcases ends with small | ⟨lines, broken⟩
      · exact .inl (Nat.le_trans hle small)
      · exact (Nat.lt_or_ge exactThreshold count).symm.imp_right fun beyond =>
          Course.broken_of_le (breaks broken) (Nat.le_trans (Nat.succ_le_succ lines) beyond)
    rw [← lineAt_landing ht m] at ha
    obtain ⟨first, hf⟩ := yields_jump_keyword ht listed notSimple placing unshared hm (reach id m (by omega))
    have behind : Course.BreaksOff blocks scene tag → Course.BreaksOff blocks scene after :=
      breaksOff_hop ht (lineAt_landing ht m ▸ ha)
    obtain ⟨second, hs⟩ :=
      yields_jump_keyword ha listed notSimple placing unshared hn (reach behind n (by omega))
    obtain ⟨whole, hw⟩ :=
      yields_jump_keyword ht listed notSimple placing unshared both (reach id (m + n) (Nat.le_refl _))
    rw [landing_add ht] at hs
    exact ⟨first, second, whole, _, _, hf, hs, hw⟩
  · intro beyond unbroken
    obtain ⟨name, hl⟩ := Rulebook.lookup_of_keywordLanguages listed
    have counts : asksPercentage scene.settings (some (.finite (m + n : Nat))) = none := by
      simp [asksPercentage, unshared]
    have course : tag.course blocks scene (Number.times (.finite (m + n : Nat))) = .error .endless := by
      rw [Number.times_natCast both]
      exact KeywordTag.course_endless (Number.hops_natCast_of_lt beyond) unbroken
    exact endless_jump counts (hl ▸ Item.endless_operate_keywords notSimple found course)

theorem counts_add_up_past_broken_off :
    let scene :=
      Scene.ofText (.ofString "if a\n  x\nelif b\nelse\n  y") "shellscript" { percentageJump := false } false
    let jumps := fun count : Nat => jump scene (Rulebook.standard.lookup "shellscript") (some (.finite count))
    let tag : KeywordTag := ⟨⟨0, .opening⟩, 0, 0⟩
    KeywordTag.at? shell scene 2 = some tag ∧ counterpartLine? shell scene 3 = none ∧
      ∃ first second whole last, (jumps 1).Yields 2 first 9 ∧ (jumps 4).Yields 9 second last ∧
        (jumps 5).Yields 2 whole last := by
  intro scene jumps tag
  obtain ⟨opens, broken, found⟩ : KeywordTag.at? shell scene 2 = some tag ∧
      counterpartLine? shell scene 3 = none ∧ ((jumps 1).run ⟨2, []⟩).2.cursor = 9 := by
    decide +kernel
  obtain ⟨first, second, whole, between, last, hf, hs, hw⟩ := (counts_add_up scene shell
    (show ("shellscript", shell) ∈ Rulebook.keywordLanguages by simp [Rulebook.keywordLanguages])
    (by decide +kernel) rfl rfl 2 tag opens 1 4 (by decide) (by decide)).1 (.inl (by decide))
  obtain ⟨entries, run⟩ := hf []
  change (jumps 1).run ⟨2, []⟩ = _ at run
  rw [run] at found
  obtain rfl : between = 9 := found
  exact ⟨opens, broken, first, second, whole, last, hf, hs, hw⟩

theorem long_counts_do_not_add_up :
    let scene := Scene.ofText (.ofString "if a\nfi") "shellscript" { percentageJump := false } false
    let jumps := fun count : Nat => jump scene (Rulebook.standard.lookup "shellscript") (some (.finite count))
    KeywordTag.at? shell scene 0 = some ⟨⟨0, .opening⟩, 0, 0⟩ ∧
      (jumps (exactThreshold + 2)).Endless 0 ∧
        ∀ result last, ¬ (jumps (exactThreshold + 2)).Yields 0 result last := by
  intro scene jumps
  let tag : KeywordTag := ⟨⟨0, .opening⟩, 0, 0⟩
  have found : KeywordTag.at? shell scene 0 = some tag := by decide +kernel
  have course : tag.course shell scene (Number.times (.finite (exactThreshold + 2 : Nat))) = .error .endless := by
    decide +kernel
  have endless : (jumps (exactThreshold + 2)).Endless 0 :=
    endless_jump rfl (Item.endless_operate_keywords (by decide +kernel) found course)
  exact ⟨found, endless, fun result last => endless.not_yields⟩

end Motion

end Counterpart
