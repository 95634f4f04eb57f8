import Counterpart.Block.Builtin
import Counterpart.Proofs.Block.Lap
import Counterpart.Proofs.Block.Walk

/-! Which counted jumps along keyword lines come to an end: those whose count is one that can be counted to,
and those that come to a line without a partner. -/

namespace Counterpart

namespace Number

lemma times_cases {count : Number} (given : count ≠ nan) :
    count.times = infinite false ∨ ∃ n : Nat, count.times = finite n := by
  cases count with
  | nan => contradiction
  | infinite negative =>
    cases negative with
    | true => exact .inr ⟨1, rfl⟩
    | false => exact .inl rfl
  | finite value =>
    obtain ⟨n, hn⟩ := Int.eq_ofNat_of_zero_le (show 0 ≤ max 1 value.floor by omega)
    refine .inr ⟨n, ?_⟩
    rw [times, hn]
    rfl

def Counted (count : Number) : Prop := ∃ n : Nat, n ≤ exactThreshold ∧ count = finite n

lemma counted_iff {count : Number} (given : count ≠ nan) :
    count.times.Counted ↔ count.times.hops ≠ none := by
  constructor
  · rintro ⟨n, small, finite⟩
    rw [finite, hops_natCast small]
    exact Option.some_ne_none n
  · intro reachable
    rcases times_cases given with infinite | ⟨n, finite⟩
    · exact absurd (infinite ▸ rfl) reachable
    · refine ⟨n, Nat.le_of_not_lt fun beyond => reachable ?_, finite⟩
      rw [finite, hops_natCast_of_lt beyond]

end Number

namespace Block

/-- The search for a partner ends, and looks at no line twice. The loop over hops ends exactly when its count
is one that counting gets to, or the chain of partners comes to a line without one. The jump runs that loop,
and is the one to say so when it does not end. -/
theorem counted_jumps_end (blocks : List Block) (scene : Scene) (tag : KeywordTag) (count : Number)
    (given : count ≠ .nan) :
    (let answer := (tag.partner? blocks scene).map fun found => scene.document.startOfLine found.1
      ∃ trace, Ends (Search.step blocks scene tag.keyword.block (tag.keyword.role ≠ .closing))
          ⟨scene.document.lineStart tag.offset, 0⟩ trace answer ∧
        (scene.document.lineAt tag.offset :: linesPassed scene.document trace answer).Nodup) ∧
    ((∃ trace last, Ends (Lap.step blocks scene count.times) (.first tag) trace last) ↔
      count.times.Counted ∨ Course.BreaksOff blocks scene tag) ∧
    (∀ trace last, Ends (Lap.step blocks scene count.times) (.first tag) trace last →
      tag.lastLap blocks scene count.times = .ok last ∧
      ∃ course, tag.course blocks scene count.times = .ok course ∧ last.Shows scene course) ∧
    (¬ count.times.Counted → ¬ Course.BreaksOff blocks scene tag →
      tag.lastLap blocks scene count.times = .error .endless ∧
      tag.course blocks scene count.times = .error .endless) := by
  rw [Number.counted_iff given]
  refine ⟨search_ends blocks (Document.lineAt_lt_lineCount _) tag.keyword, Lap.ends_iff,
    fun trace last ends => ?_, fun unreachable unbroken => ?_⟩
  · refine ⟨KeywordTag.lastLap_eq_ok_iff.mpr ⟨trace, ends⟩, ?_⟩
    obtain ⟨hops, hc⟩ | ⟨unreachable, hc⟩ := KeywordTag.course_cases blocks scene tag count.times
    · exact ⟨_, hc, KeywordTag.shows_of_course ends hc⟩
    · have breaks := (Lap.ends_iff.mp ⟨trace, last, ends⟩).resolve_left (not_not_intro unreachable)
      exact absurd breaks (KeywordTag.course_of_error hc).2.1
  · rw [not_not] at unreachable
    exact ⟨KeywordTag.lastLap_endless unreachable unbroken, KeywordTag.course_endless unreachable unbroken⟩

theorem counted_jumps_end_in_conditional :
    let scene := Scene.ofText (.ofString "if a\nelse\n  b\nfi\n") "shellscript" {} false
    let tag : KeywordTag := ⟨⟨0, .middle⟩, 5, 5⟩
    KeywordTag.at? shell scene 6 = some tag ∧ (3 : Number) ≠ .nan ∧
      (∃ trace, Ends (Search.step shell scene 0 true) ⟨5, 0⟩ trace (some 14) ∧
        (1 :: linesPassed scene.document trace (some 14)).Nodup) ∧
      ∃ trace last, Ends (Lap.step shell scene (Number.times 3)) (.first tag) trace last := by
  intro scene tag
  have found : KeywordTag.at? shell scene 6 = some tag := by decide +kernel
  have given : (3 : Number) ≠ .nan := by decide
  have start : scene.document.lineStart tag.offset = 5 := by decide +kernel
  have line : scene.document.lineAt tag.offset = 1 := by decide +kernel
  have answer : ((tag.partner? shell scene).map fun found => scene.document.startOfLine found.1) = some 14 := by
    decide +kernel
  have counted : (Number.times 3).Counted := ⟨3, by decide, by decide +kernel⟩
  obtain ⟨searches, ends, -, -⟩ := counted_jumps_end shell scene tag 3 given
  rw [start, line] at searches
  simp only [answer] at searches
  exact ⟨found, given, searches, ends.mpr (.inl counted)⟩

theorem counted_jump_without_end :
    let scene := Scene.ofText (.ofString "if a\nfi") "shellscript" {} false
    let tag : KeywordTag := ⟨⟨0, .opening⟩, 0, 0⟩
    KeywordTag.at? shell scene 0 = some tag ∧
      ∀ count ∈ [.infinite false, Number.nearest (Nat.pow 10 300 : Nat)],
        (¬ ∃ trace last, Ends (Lap.step shell scene count.times) (.first tag) trace last) ∧
        tag.lastLap shell scene count.times = .error .endless := by
  intro scene tag
  have found : KeywordTag.at? shell scene 0 = some tag := by decide +kernel
  have round : Course.follow shell scene tag none 1 = Course.follow shell scene tag none 3 := by decide +kernel
  have whole : (Course.follow shell scene tag none 3).left = 0 := by decide +kernel
  have unbroken : ¬ Course.BreaksOff shell scene tag := by
    rintro ⟨hops, broken⟩
    exact Nat.ne_of_gt broken (Course.whole_of_round (by decide) whole round hops)
  have unending : ∀ count : Number, count.times.hops = none →
      (¬ ∃ trace last, Ends (Lap.step shell scene count.times) (.first tag) trace last) ∧
        tag.lastLap shell scene count.times = .error .endless := by
    intro count unreachable
    refine ⟨fun ends => ?_, KeywordTag.lastLap_endless unreachable unbroken⟩
    exact (Lap.ends_iff.mp ends).elim (fun reachable => reachable unreachable) unbroken
  simp only [List.forall_mem_cons, List.not_mem_nil, false_implies, implies_true, and_true]
  exact ⟨found, unending _ rfl, unending _ (by decide +kernel)⟩

end Block

end Counterpart
