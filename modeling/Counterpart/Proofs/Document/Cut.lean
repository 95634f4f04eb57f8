import Counterpart.Proofs.Document.Lines

/-! A document cut around one of its lines: what is known of the line is read off the three parts. -/

namespace Counterpart

namespace LineIndex

lemma startsFrom_append (offset : Nat) (us vs : Units) :
    startsFrom offset (us ++ vs) = startsFrom offset us ++ startsFrom (offset + us.length) vs := by
  induction us generalizing offset with
  | nil => rfl
  | cons u us ih =>
    have hl : offset + 1 + us.length = offset + (us.length + 1) := by omega
    rw [List.cons_append, startsFrom, startsFrom, ih, List.length_cons, hl]
    split <;> rfl

end LineIndex

namespace Document

open LineIndex

structure Cut (doc : Document) (before line behind : Units) : Prop where
  units : doc.text.toUnits = before ++ (line ++ behind)
  first : before = [] ∨ ∃ us, before = us ++ [lineFeed]
  inline : lineFeed ∉ line
  last : behind = [] ∨ ∃ us, behind = lineFeed :: us

def shown (line behind : Units) : Units :=
  if behind.isEmpty then line else if line.getLast? = some carriageReturn then line.dropLast else line

lemma isPrefix_shown (line behind : Units) : shown line behind <+: line := by
  rw [shown]
  split
  · exact List.prefix_rfl
  · split
    · exact List.dropLast_prefix line
    · exact List.prefix_rfl

lemma takeWhile_shown {indent : Units} (blank : ∀ u ∈ indent, isIndent u = true) {u : UInt16}
    (solid : ¬ isIndent u = true) (rest behind : Units) :
    (shown (indent ++ u :: rest) behind).takeWhile isIndent = indent := by
  have stops : ∀ rest, (indent ++ u :: rest).takeWhile isIndent = indent := fun rest => by
    rw [List.takeWhile_append_of_pos blank, List.takeWhile_cons_of_neg solid, List.append_nil]
  rw [shown]
  split
  · exact stops rest
  · split
    · rw [List.dropLast_append_cons]
      cases rest with
      | nil => exact (List.takeWhile_append_of_pos blank).trans (by simp)
      | cons v rest => exact stops _
    · exact stops rest

variable {doc : Document}

lemma exists_cut_units (us : Units) {i : Nat} (h : i ≤ us.count lineFeed) :
    ∃ before line behind : Units, us = before ++ (line ++ behind) ∧
      (before = [] ∨ ∃ vs, before = vs ++ [lineFeed]) ∧
      lineFeed ∉ line ∧ (behind = [] ∨ ∃ vs, behind = lineFeed :: vs) ∧ before.count lineFeed = i := by
  induction i with
  | zero =>
    obtain ⟨line, behind, rfl, inline, last⟩ := Units.exists_line us
    exact ⟨[], line, behind, rfl, .inl rfl, inline, last, rfl⟩
  | succ i ih =>
    obtain ⟨before, line, behind, rfl, _, inline, last, hc⟩ := ih (Nat.le_of_succ_le h)
    rw [List.count_append, List.count_append, List.count_eq_zero.mpr inline] at h
    rcases last with rfl | ⟨us, rfl⟩
    · rw [List.count_nil] at h
      omega
    · obtain ⟨next, after, rfl, hn, ends⟩ := Units.exists_line us
      refine ⟨before ++ line ++ [lineFeed], next, after, by simp, .inr ⟨_, rfl⟩, hn, ends, ?_⟩
      rw [List.count_append, List.count_append, List.count_eq_zero.mpr inline, hc]
      rfl

lemma exists_cut {i : Nat} (h : i < doc.lineCount) :
    ∃ before line behind, doc.Cut before line behind ∧ before.count lineFeed = i := by
  rw [lineCount_eq] at h
  obtain ⟨before, line, behind, units, first, inline, last, hc⟩ := exists_cut_units _ (Nat.le_of_lt_succ h)
  exact ⟨before, line, behind, ⟨units, first, inline, last⟩, hc⟩

lemma starts_behind_feed {us rest : Units} (units : doc.text.toUnits = us ++ lineFeed :: rest) :
    doc.index.starts[us.count lineFeed + 1]? = some (us.length + 1) := by
  rw [← Array.getElem?_toList, starts_eq, List.getElem?_cons_succ, units, startsFrom_append,
    List.getElem?_append_right (Nat.le_of_eq (length_startsFrom 0 us)), length_startsFrom, Nat.sub_self,
    Nat.zero_add]
  rfl

lemma skipIndent_units {before us rest : Units} (units : doc.text.toUnits = before ++ (us ++ rest)) :
    doc.skipIndent us.length before.length = before.length + (us.takeWhile isIndent).length := by
  induction us generalizing before with
  | nil => rfl
  | cons u us ih =>
    have here : doc.text.units[before.length]? = some u := by
      rw [← Text.getElem?_toUnits, units, List.getElem?_append_right (Nat.le_refl _), Nat.sub_self]
      rfl
    have next := @ih (before ++ [u]) (by simpa using units)
    rw [List.length_append, List.length_singleton] at next
    rw [List.length_cons, skipIndent, here, Option.any_some, List.takeWhile_cons, next]
    split
    · rw [List.length_cons]
      omega
    · rfl

namespace Cut

variable {before line behind : Units} (cut : doc.Cut before line behind)
include cut

lemma startOfLine : doc.startOfLine (before.count lineFeed) = before.length := by
  rcases cut.first with rfl | ⟨us, rfl⟩
  · exact startOfLine_zero
  · have units := cut.units
    rw [List.append_assoc, List.singleton_append] at units
    have hc : (us ++ [lineFeed]).count lineFeed = us.count lineFeed + 1 := by rw [List.count_append]; rfl
    rw [hc, Document.startOfLine, Array.getD_eq_getD_getElem?, starts_behind_feed units, List.length_append]
    rfl

lemma endOfLine : doc.endOfLine (before.count lineFeed) = before.length + (shown line behind).length := by
  have hline := List.count_eq_zero.mpr cut.inline
  have units := cut.units
  rcases cut.last with rfl | ⟨us, rfl⟩
  · have hlast : doc.lineCount ≤ before.count lineFeed + 1 := by
      rw [lineCount_eq, cut.units, List.count_append, List.count_append, hline]
      exact Nat.le_refl _
    rw [endOfLine_last hlast, length, ← Text.length_toUnits, cut.units, List.append_nil, List.length_append]
    rfl
  · rw [← List.append_assoc] at units
    have next := starts_behind_feed units
    rw [List.count_append, hline, Nat.add_zero, List.length_append] at next
    rw [Document.endOfLine, next, cut.startOfLine]
    dsimp only
    rcases List.eq_nil_or_concat line with rfl | ⟨front, u, rfl⟩
    · simp [shown]
    · have last : doc.text.units[before.length + front.length]? = some u := by
        rw [← Text.getElem?_toUnits, cut.units]
        simp
      have place : before.length + (front ++ [u]).length + 1 - 1 - 1 = before.length + front.length := by simp
      have further : before.length < before.length + (front ++ [u]).length + 1 - 1 := by simp
      rw [List.concat_eq_append, place, last]
      by_cases hu : u = carriageReturn
      · simp [shown, hu]
      · simp [shown, hu]

lemma contentOfLine : doc.contentOfLine (before.count lineFeed) =
    before.length + ((shown line behind).takeWhile isIndent).length := by
  obtain ⟨rest, hr⟩ := isPrefix_shown line behind
  have units := cut.units
  rw [← hr, List.append_assoc] at units
  rw [Document.contentOfLine, cut.endOfLine, cut.startOfLine, Nat.add_sub_cancel_left]
  exact skipIndent_units units

lemma contentUnits : doc.contentUnits (before.count lineFeed) = (shown line behind).dropWhile isIndent := by
  obtain ⟨rest, hr⟩ := isPrefix_shown line behind
  have units := cut.units
  rw [← hr, List.append_assoc, ← List.append_assoc] at units
  have stop : before.length + (shown line behind).length = (before ++ shown line behind).length :=
    List.length_append.symm
  rw [Document.contentUnits, Text.extract_eq, cut.endOfLine, cut.contentOfLine, units, stop, List.take_left,
    ← List.drop_drop, List.drop_left]
  have parts := List.takeWhile_append_dropWhile (p := isIndent) (l := shown line behind)
  exact (congrArg (List.drop _) parts.symm).trans List.drop_left

end Cut

end Document

end Counterpart
