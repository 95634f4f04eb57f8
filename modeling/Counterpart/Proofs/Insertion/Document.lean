import Counterpart.Proofs.Document.Cut
import Counterpart.Proofs.Insertion.Gap

namespace Counterpart

namespace Gap

def offsets (a line : Units) : Gap := ⟨a.length, line.length⟩

def number (a : Units) : Gap := ⟨a.count lineFeed, 1⟩

lemma getElem?_place {α : Type} (first middle last : List α) (o : Nat) :
    (first ++ middle ++ last)[place ⟨first.length, middle.length⟩ o]? = (first ++ last)[o]? := by
  rcases Nat.lt_or_ge o first.length with ahead | behind
  · rw [place_of_lt ahead, List.append_assoc, List.getElem?_append_left ahead, List.getElem?_append_left ahead]
  · have further : (first ++ middle).length ≤ o + middle.length := by
      rw [List.length_append]
      omega
    rw [place_of_le behind, List.getElem?_append_right further, List.getElem?_append_right behind,
      List.length_append, Nat.add_sub_add_right]

lemma getElem?_between {α : Type} (first : List α) {middle : List α} (last : List α) {k : Nat}
    (hk : k < middle.length) : (first ++ middle ++ last)[first.length + k]? = middle[k]? := by
  rw [List.append_assoc, List.getElem?_append_right (Nat.le_add_right _ _), Nat.add_sub_cancel_left,
    List.getElem?_append_left hk]

end Gap

namespace Document

structure Carries (doc wide : Document) (gap : Gap) (line wideLine : Nat) : Prop where
  endOfLine : wide.endOfLine wideLine = gap.place (doc.endOfLine line)
  contentOfLine : wide.contentOfLine wideLine = gap.place (doc.contentOfLine line)
  contentUnits : wide.contentUnits wideLine = doc.contentUnits line

lemma shown_congr (line : Units) {behind other : Units} (h : other.isEmpty = behind.isEmpty) :
    shown line other = shown line behind := by
  rw [shown, shown, h]

lemma ends_of_append {front rest : Units} (hr : rest ≠ [])
    (h : front ++ rest = [] ∨ ∃ us, front ++ rest = us ++ [lineFeed]) : ∃ us, rest = us ++ [lineFeed] := by
  have whole := h.resolve_left fun hn => hr (List.append_eq_nil_iff.mp hn).2
  obtain ⟨us, u, rfl⟩ := (List.eq_nil_or_concat rest).resolve_left hr
  obtain ⟨vs, hv⟩ := whole
  rw [List.concat_eq_append, ← List.append_assoc] at hv
  exact ⟨us, List.concat_eq_append.trans (congrArg (us ++ ·) (List.append_inj_right' hv rfl))⟩

structure Inserts (doc wide : Document) (a line b : Units) : Prop where
  units : doc.text.toUnits = a ++ b
  wideUnits : wide.text.toUnits = a ++ line ++ b
  first : a = [] ∨ ∃ us, a = us ++ [lineFeed]
  single : ∃ us, line = us ++ [lineFeed] ∧ lineFeed ∉ us

namespace Inserts

variable {doc wide : Document} {a line b : Units} (h : doc.Inserts wide a line b)
include h

lemma count_line : line.count lineFeed = 1 := by
  obtain ⟨us, rfl, inline⟩ := h.single
  rw [List.count_append, List.count_eq_zero.mpr inline]
  rfl

lemma lineCount_eq_succ : wide.lineCount = doc.lineCount + 1 := by
  rw [lineCount_eq, lineCount_eq, h.units, h.wideUnits, List.count_append, List.count_append, List.count_append,
    h.count_line]
  omega

lemma length_eq_place : wide.length = (Gap.offsets a line).place doc.length := by
  have hl : doc.length = a.length + b.length := by
    rw [length, ← Text.length_toUnits, h.units, List.length_append]
  have hw : wide.length = a.length + b.length + line.length := by
    rw [length, ← Text.length_toUnits, h.wideUnits, List.length_append, List.length_append, Nat.add_right_comm]
  rw [hl, hw, Gap.place_of_le (Nat.le_add_right a.length b.length)]
  rfl

lemma number_lt_lineCount : (Gap.number a).start < doc.lineCount := by
  rw [lineCount_eq, h.units, List.count_append]
  exact Nat.lt_succ_of_le (Nat.le_add_right _ _)

section

variable {before between behind : Units} (cut : doc.Cut before between behind)
include cut

lemma exists_cut_below (below : a.length ≤ before.length) :
    ∃ wideBefore, wide.Cut wideBefore between behind ∧ wideBefore.length = before.length + line.length ∧
      wideBefore.count lineFeed = before.count lineFeed + 1 ∧ a.count lineFeed ≤ before.count lineFeed := by
  have units := cut.units
  obtain ⟨rest, rfl⟩ : a <+: before :=
    List.prefix_of_prefix_length_le ⟨b, h.units.symm⟩ ⟨_, units.symm⟩ below
  rw [h.units, List.append_assoc, List.append_cancel_left_eq] at units
  refine ⟨a ++ line ++ rest, ⟨?_, .inr ?_, cut.inline, cut.last⟩, ?_, ?_, ?_⟩
  · rw [h.wideUnits, units, List.append_assoc _ rest]
  · by_cases hr : rest = []
    · obtain ⟨us, rfl, _⟩ := h.single
      exact ⟨a ++ us, by simp [hr]⟩
    · obtain ⟨us, rfl⟩ := ends_of_append hr cut.first
      exact ⟨a ++ line ++ us, (List.append_assoc _ us _).symm⟩
  · rw [List.length_append, List.length_append, List.length_append, Nat.add_right_comm]
  · rw [List.count_append, List.count_append, List.count_append, h.count_line, Nat.add_right_comm]
  · rw [List.count_append]
    exact Nat.le_add_right _ _

lemma exists_cut_above (above : before.length < a.length) :
    ∃ wideBehind, wide.Cut before between wideBehind ∧ wideBehind.isEmpty = behind.isEmpty ∧
      before.length + between.length < a.length ∧ before.count lineFeed < a.count lineFeed := by
  have units := cut.units
  have short := Nat.le_of_lt above
  obtain ⟨rest, rfl⟩ : before <+: a :=
    List.prefix_of_prefix_length_le ⟨_, units.symm⟩ ⟨b, h.units.symm⟩ short
  rw [h.units, List.append_assoc, List.append_cancel_left_eq] at units
  -- What is left of `a` ends with a line feed, which the line between does not hold.
  have hrest : rest ≠ [] := by
    rintro rfl
    simp at above
  obtain ⟨init, ends⟩ := ends_of_append hrest h.first
  have feed : lineFeed ∈ rest := by simp [ends]
  rcases List.append_eq_append_iff.mp units with ⟨c, hc, _⟩ | ⟨c, rfl, hb⟩
  · exact absurd (hc ▸ List.mem_append_left c feed) cut.inline
  · have hc : c ≠ [] := by
      rintro rfl
      exact cut.inline (by simpa using feed)
    obtain ⟨u, c, rfl⟩ := List.exists_cons_of_ne_nil hc
    obtain rfl : u = lineFeed := by
      rcases cut.last with rfl | ⟨us, rfl⟩
      · contradiction
      · exact (List.cons.inj hb).1.symm
    refine ⟨lineFeed :: c ++ (line ++ b), ⟨?_, cut.first, cut.inline, .inr ⟨_, rfl⟩⟩, ?_, ?_, ?_⟩
    · rw [h.wideUnits]
      simp only [List.append_assoc]
    · rw [hb]
      rfl
    · simp only [List.length_append, List.length_cons]
      omega
    · rw [List.count_append, List.count_append, List.count_cons_self]
      omega

end

lemma carries_within {i : Nat} (hi : i < doc.lineCount) :
    doc.Carries wide (.offsets a line) i ((Gap.number a).place i) := by
  obtain ⟨before, between, behind, cut, rfl⟩ := exists_cut hi
  have hshown := (isPrefix_shown between behind).length_le
  have hindent := (List.takeWhile_prefix (l := shown between behind) isIndent).length_le
  rcases Nat.lt_or_ge before.length a.length with above | below
  · obtain ⟨wideBehind, wideCut, hb, hl, hc⟩ := h.exists_cut_above cut above
    have place : ∀ k ≤ between.length, (Gap.offsets a line).place (before.length + k) = before.length + k :=
      fun k hk => Gap.place_of_lt (show before.length + k < a.length by omega)
    rw [Gap.place_of_lt hc]
    constructor
    · rw [cut.endOfLine, wideCut.endOfLine, shown_congr between hb, place _ hshown]
    · rw [cut.contentOfLine, wideCut.contentOfLine, shown_congr between hb, place _ (Nat.le_trans hindent hshown)]
    · rw [cut.contentUnits, wideCut.contentUnits, shown_congr between hb]
  · obtain ⟨wideBefore, wideCut, hl, hc, hle⟩ := h.exists_cut_below cut below
    have place : ∀ k, (Gap.offsets a line).place (before.length + k) = wideBefore.length + k := fun k => by
      rw [Gap.place_of_le (Nat.le_add_right_of_le below), hl, Nat.add_right_comm, Gap.offsets]
    have number : (Gap.number a).place (before.count lineFeed) = wideBefore.count lineFeed :=
      (Gap.place_of_le hle).trans hc.symm
    rw [number]
    constructor
    · rw [cut.endOfLine, wideCut.endOfLine, place]
    · rw [cut.contentOfLine, wideCut.contentOfLine, place]
    · rw [cut.contentUnits, wideCut.contentUnits]

lemma carries_behind {i : Nat} (hi : doc.lineCount ≤ i) :
    doc.Carries wide (.offsets a line) i ((Gap.number a).place i) := by
  have behind : wide.lineCount ≤ (Gap.number a).place i := by
    rw [h.lineCount_eq_succ, Gap.place_of_le (Nat.le_trans (Nat.le_of_lt h.number_lt_lineCount) hi)]
    exact Nat.add_le_add_right hi 1
  obtain ⟨hc, he⟩ := contentOfLine_of_le hi
  obtain ⟨wideContent, wideEnd⟩ := contentOfLine_of_le behind
  have empty : ∀ (text : Text) (o : Nat), text.extract o o = [] := fun text o => by simp [Text.extract_eq]
  constructor
  · rw [he, wideEnd, h.length_eq_place]
  · rw [hc, wideContent, h.length_eq_place]
  · rw [contentUnits, contentUnits, hc, he, wideContent, wideEnd, empty, empty]

lemma carries (i : Nat) : doc.Carries wide (.offsets a line) i ((Gap.number a).place i) :=
  (Nat.lt_or_ge i doc.lineCount).elim h.carries_within h.carries_behind

end Inserts

end Document

end Counterpart
