import Counterpart.Proofs.Document.Lines
import Mathlib.Data.List.Basic

namespace Counterpart

namespace Text

def feedsBefore (text : Text) (o : Nat) : List Nat := (text.toUnits.take o).idxsOf lineFeed

def feedsFrom (text : Text) (o : Nat) : List Nat := (text.toUnits.drop o).idxsOf lineFeed o

end Text

namespace LineIndex

lemma startsFrom_eq (offset : Nat) (us : Units) :
    startsFrom offset us = (us.idxsOf lineFeed offset).map (· + 1) := by
  induction us generalizing offset with
  | nil => rfl
  | cons u us ih =>
    by_cases hu : u = lineFeed
    · simp [startsFrom, hu, ih]
    · simp [startsFrom, hu, ih]

end LineIndex

namespace Document

open Text

variable {doc : Document}

lemma starts_eq_feeds {o : Nat} (ho : o ≤ doc.length) :
    doc.index.starts.toList = 0 :: (doc.text.feedsBefore o ++ doc.text.feedsFrom o).map (· + 1) := by
  have parts : doc.text.toUnits = doc.text.toUnits.take o ++ doc.text.toUnits.drop o := by simp
  have read : (doc.text.toUnits.take o).length = o := by
    rw [List.length_take, Text.length_toUnits]
    exact Nat.min_eq_left ho
  rw [starts_eq, LineIndex.startsFrom_eq, parts, List.idxsOf_append, read, Nat.zero_add]
  rfl

lemma length_feedsBefore {o : Nat} (ho : o ≤ doc.length) : (doc.text.feedsBefore o).length = doc.lineAt o := by
  rw [lineAt_natCast ho, feedsBefore, List.length_idxsOf]

lemma startOfLine_of_feed {line start : Nat} (h : doc.index.starts.toList[line]? = some start) :
    doc.startOfLine line = start := by
  rw [startOfLine, Array.getD_eq_getD_getElem?, ← Array.getElem?_toList, h, Option.getD_some]

lemma startOfLine_lineAt {o : Nat} (ho : o ≤ doc.length) :
    doc.startOfLine (doc.lineAt o) = (doc.text.feedsBefore o).getLast?.elim 0 (· + 1) := by
  have lines := length_feedsBefore ho
  apply startOfLine_of_feed
  rw [starts_eq_feeds ho, ← lines]
  rcases List.eq_nil_or_concat (doc.text.feedsBefore o) with none | ⟨above, feed, last⟩
  · simp [none]
  · simp [last]

lemma starts_below {o : Nat} (ho : o ≤ doc.length) :
    doc.index.starts[doc.lineAt o + 1]? = (doc.text.feedsFrom o).head?.map (· + 1) := by
  rw [← Array.getElem?_toList, starts_eq_feeds ho, ← length_feedsBefore ho, List.getElem?_cons_succ,
    List.getElem?_map, List.getElem?_append_right (Nat.le_refl _), Nat.sub_self, List.head?_eq_getElem?]

lemma endOfLine_lineAt {o : Nat} (ho : o ≤ doc.length) :
    doc.endOfLine (doc.lineAt o) = match (doc.text.feedsFrom o).head? with
      | none => doc.length
      | some feed =>
        if doc.startOfLine (doc.lineAt o) < feed ∧ doc.text.units[feed - 1]? = some carriageReturn then feed - 1
        else feed := by
  rw [endOfLine, starts_below ho]
  cases (doc.text.feedsFrom o).head? with
  | none => rfl
  | some feed => simp

def bisect (doc : Document) (offset low high : Nat) : Nat :=
  if low < high then
    let middle := (low + high + 1) / 2
    if doc.startOfLine middle ≤ offset then bisect doc offset middle high else bisect doc offset low (middle - 1)
  else low
termination_by high - low

lemma bisect_eq {o low high : Nat} (ho : o ≤ doc.length) (hl : low ≤ doc.lineAt o) (hr : doc.lineAt o ≤ high)
    (hc : high < doc.lineCount) : doc.bisect o low high = doc.lineAt o := by
  fun_induction bisect doc o low high with
  | case1 low high hlt middle before ih =>
    have inside : middle ≤ high := by omega
    exact ih ((startOfLine_le_iff (by omega) ho).mp before) hr hc
  | case2 low high hlt middle behind ih =>
    have inside : low < middle ∧ middle ≤ high := by omega
    rw [startOfLine_le_iff (by omega) ho] at behind
    exact ih hl (by omega) (by omega)
  | case3 low high hlt => omega

lemma endOfLine_le_startOfLine_succ (line : Nat) : doc.endOfLine line ≤ doc.startOfLine (line + 1) := by
  by_cases h : line + 1 < doc.lineCount
  · exact Nat.le_of_lt (lineEnd_above h).2
  · rw [startOfLine_of_le (Nat.le_of_not_lt h)]
    exact endOfLine_le_length line

/-- With the offset moved to the nearer end of the text if it is outside: its line is numbered by the line
feeds before it, which halving the index finds too, and goes from behind the last of them to the first one
that follows. -/
theorem lines_between_feeds (doc : Document) (offset : Int) :
    let place := doc.text.clamp offset
    let before := doc.text.feedsBefore place
    let behind := doc.text.feedsFrom place
    (place : Int) = max 0 (min offset doc.length) ∧
    doc.lineAt offset = before.length ∧
    doc.bisect place 0 (doc.lineCount - 1) = before.length ∧
    doc.lineStart offset = before.getLast?.elim 0 (· + 1) ∧
    (doc.lineEnd offset = match behind.head? with
      | none => doc.length
      | some feed =>
        if doc.lineStart offset < feed ∧ doc.text.units[feed - 1]? = some carriageReturn
          then feed - 1 else feed) ∧
    doc.nextLineStart offset = behind.head?.elim doc.length (· + 1) ∧
    doc.lineStart offset ≤ doc.firstNonBlank offset ∧
    doc.firstNonBlank offset ≤ doc.lineEnd offset ∧
    doc.lineEnd offset ≤ doc.nextLineStart offset := by
  intro place before behind
  have inside : place ≤ doc.length := doc.text.clamp_le offset
  have line : doc.lineAt place = doc.lineAt offset := lineAt_clamp offset
  have read : doc.lineAt offset < doc.lineCount := lineAt_lt_lineCount offset
  have count : before.length = doc.lineAt offset := (length_feedsBefore inside).trans line
  refine ⟨?_, count.symm, ?_, ?_, ?_, ?_, (contentOfLine_bounds read).1, (contentOfLine_bounds read).2, ?_⟩
  · show ((min offset.toNat doc.text.length : Nat) : Int) = max 0 (min offset doc.text.length)
    omega
  · rw [count, ← line]
    exact bisect_eq inside (Nat.zero_le _) (by omega) (by omega)
  · rw [lineStart, ← line]
    exact startOfLine_lineAt inside
  · rw [lineEnd, lineStart, ← line]
    exact endOfLine_lineAt inside
  · rw [nextLineStart_eq, startOfLine, Array.getD_eq_getD_getElem?, ← line, starts_below inside]
    cases behind.head? <;> rfl
  · rw [nextLineStart_eq]
    exact endOfLine_le_startOfLine_succ _

end Document

end Counterpart
