import Counterpart.Proofs.Motion.Share
import Counterpart.Proofs.Motion.Reach

namespace Counterpart

namespace Motion

lemma percentagePlace_mono (doc : Document) {m n : Number} (h : m.whole ≤ n.whole) :
    percentagePlace doc m ≤ percentagePlace doc n :=
  Document.firstNonBlank_mono (Int.ofNat_le.mpr (percentageOffset_mono_percent h doc.length))

/-- The offset at a percentage lies in the document and keeps the order of percentages and of sizes. Where
binary64 holds every offset it is the exact one, or at most 99 short of it in a large document. So a jump to a
percentage goes, from wherever it starts, to a place that keeps the order of percentages. -/
theorem percentages_in_order {a b : Rat} (hab : a ≤ b) :
    (∀ size, percentageOffset size (.finite a) ≤ percentageOffset size (.finite b) ∧
      percentageOffset size (.finite b) ≤ size) ∧
    (∀ s t, s ≤ t → t < Number.overflow →
      percentageOffset s (.finite a) ≤ percentageOffset t (.finite a)) ∧
    (∀ size ≤ exactThreshold,
      percentageOffset size (.finite a) ≤ exactOffset size (Number.finite a).whole ∧
      exactOffset size (Number.finite a).whole ≤ percentageOffset size (.finite a) + 99 ∧
      (size ≤ coarseThreshold ∨ 100 ∣ size →
        percentageOffset size (.finite a) = exactOffset size (Number.finite a).whole)) ∧
    ∀ scene : Scene, ∃ first last : Nat, first ≤ last ∧ last ≤ scene.document.length ∧
      ∀ origin, (jumpToPercentage scene (.finite a)).Yields origin first first ∧
        (jumpToPercentage scene (.finite b)).Yields origin last last := by
  have wholes := Number.whole_mono hab
  refine ⟨fun size => ⟨percentageOffset_mono_percent wholes size, percentageOffset_le size _⟩,
    fun s t h ht => percentageOffset_mono_size h ht _,
    fun size exact => percentageOffset_bounds _ exact, fun scene => ?_⟩
  exact ⟨_, _, percentagePlace_mono scene.document wholes, percentagePlace_le _ _,
    fun origin => ⟨yields_jumpToPercentage scene _ origin, yields_jumpToPercentage scene _ origin⟩⟩

theorem percentages_in_order_from_thirty_three_to_fifty :
    let scene := Scene.ofText (.ofString "if a\n\n  echo a\nfi") "shellscript" {} false
    (33 : Rat) ≤ 50 ∧ percentageOffset 80099 33 ≤ percentageOffset 80099 50 ∧
      (80099 < Number.overflow ∧ percentageOffset 80000 33 ≤ percentageOffset 80099 33) ∧
      (percentageOffset 80099 33 = 26400 ∧ exactOffset 80099 33 = 26432) ∧
      ∃ first last : Nat, first ≤ last ∧ last ≤ 17 ∧ ∀ origin,
        (jumpToPercentage scene 33).Yields origin first first ∧
          (jumpToPercentage scene 50).Yields origin last last := by
  intro scene
  have ordered : (33 : Rat) ≤ 50 := by decide
  have inside : 80099 < Number.overflow := by decide +kernel
  have length : scene.document.length = 17 := by decide +kernel
  obtain ⟨percents, sizes, -, places⟩ := percentages_in_order ordered
  obtain ⟨first, last, order, bound, yields⟩ := places scene
  exact ⟨ordered, (percents 80099).1, ⟨inside, sizes 80000 80099 (by decide) inside⟩, by decide +kernel,
    first, last, order, length ▸ bound, yields⟩

theorem percentageOffset_above_exact : Number.nearest 1152921504606848512 = 1152921504606848512 ∧
    exactOffset 1152921504606848512 (75 : Number).whole + 99 < percentageOffset 1152921504606848512 75 := by
  decide +kernel

end Motion

end Counterpart
