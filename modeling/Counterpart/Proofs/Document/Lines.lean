import Counterpart.Document
import Mathlib.Tactic.Lemma

namespace Counterpart

namespace Text

lemma getElem?_toUnits (text : Text) (o : Nat) : text.toUnits[o]? = text.units[o]? := by
  rw [toUnits, Array.getElem?_toList]

lemma extract_eq (text : Text) (a b : Nat) : text.extract a b = (text.toUnits.take b).drop a := by
  rw [extract, Array.toList_extract, List.extract_eq_take_drop, toUnits, List.drop_take]

end Text

namespace Units

lemma exists_line (us : Units) :
    ∃ line after : Units, us = line ++ after ∧ lineFeed ∉ line ∧
    (after = [] ∨ ∃ rest, after = lineFeed :: rest) := by
  induction us with
  | nil => exact ⟨[], [], rfl, by simp, .inl rfl⟩
  | cons u us ih =>
    by_cases hu : u = lineFeed
    · exact ⟨[], u :: us, rfl, by simp, .inr ⟨us, by rw [hu]⟩⟩
    · obtain ⟨line, after, rfl, inline, ends⟩ := ih
      refine ⟨u :: line, after, rfl, ?_, ends⟩
      rw [List.mem_cons, not_or]
      exact ⟨Ne.symm hu, inline⟩

lemma takeWhile_line {line : Units} (inline : lineFeed ∉ line) (after : Units) :
    (line ++ after).takeWhile (· != lineFeed) = line ++ after.takeWhile (· != lineFeed) := by
  apply List.takeWhile_append_of_pos
  intro u hu
  rw [bne_iff_ne]
  rintro rfl
  exact inline hu

end Units

namespace LineIndex

def startsFrom (offset : Nat) : Units → List Nat
  | [] => []
  | u :: us => if u = lineFeed then (offset + 1) :: startsFrom (offset + 1) us else startsFrom (offset + 1) us

def linesFrom (line : Nat) : Units → List Nat
  | [] => [line]
  | u :: us => line :: linesFrom (if u = lineFeed then line + 1 else line) us

lemma extend_toList (index : LineIndex) (offset line : Nat) (us : Units) :
    (extend index offset line us).starts.toList = index.starts.toList ++ startsFrom offset us ∧
      (extend index offset line us).lines.toList = index.lines.toList ++ linesFrom line us := by
  induction us generalizing index offset line with
  | nil => simp [extend, startsFrom, linesFrom]
  | cons u us ih =>
    rw [extend]
    split
    · next hu =>
      obtain ⟨hs, hl⟩ := ih ⟨index.starts.push (offset + 1), index.lines.push line⟩ (offset + 1) (line + 1)
      rw [hs, hl]
      simp [startsFrom, linesFrom, hu]
    · next hu =>
      obtain ⟨hs, hl⟩ := ih { index with lines := index.lines.push line } (offset + 1) line
      rw [hs, hl]
      simp [startsFrom, linesFrom, hu]

lemma length_startsFrom (offset : Nat) (us : Units) : (startsFrom offset us).length = us.count lineFeed := by
  induction us generalizing offset with
  | nil => rfl
  | cons u us ih =>
    rw [startsFrom, List.count_cons]
    split <;> simp_all

lemma linesFrom_getElem? (line : Nat) {us : Units} {k : Nat} (h : k ≤ us.length) :
    (linesFrom line us)[k]? = some (line + (us.take k).count lineFeed) := by
  induction us generalizing line k with
  | nil =>
    obtain rfl := Nat.le_zero.mp h
    rfl
  | cons u us ih =>
    cases k with
    | zero => rfl
    | succ k =>
      rw [linesFrom, List.getElem?_cons_succ, ih _ (Nat.le_of_succ_le_succ h), List.take_succ_cons,
        List.count_cons]
      by_cases hu : u = lineFeed
      · simp [hu]
        omega
      · simp [hu]

lemma lineFeed_of_startsFrom {offset : Nat} {us : Units} {i start : Nat}
    (h : (startsFrom offset us)[i]? = some start) :
    ∃ k, start = offset + k + 1 ∧ us[k]? = some lineFeed := by
  induction us generalizing offset i with
  | nil => simp [startsFrom] at h
  | cons u us ih =>
    rw [startsFrom] at h
    split at h
    · next hu =>
      cases i with
      | zero =>
        refine ⟨0, ?_, by simp [hu]⟩
        simpa [eq_comm] using h
      | succ i =>
        obtain ⟨k, hk, hf⟩ := ih h
        exact ⟨k + 1, by omega, hf⟩
    · obtain ⟨k, hk, hf⟩ := ih h
      exact ⟨k + 1, by omega, hf⟩

lemma startsFrom_le_iff {offset : Nat} {us : Units} {i start : Nat} (h : (startsFrom offset us)[i]? = some start)
    (k : Nat) : start ≤ offset + k ↔ i < (us.take k).count lineFeed := by
  induction us generalizing offset i k with
  | nil => simp [startsFrom] at h
  | cons u us ih =>
    cases k with
    | zero =>
      obtain ⟨k, hk, _⟩ := lineFeed_of_startsFrom h
      simp
      omega
    | succ k =>
      rw [startsFrom] at h
      rw [List.take_succ_cons, List.count_cons]
      by_cases hu : u = lineFeed
      · rw [if_pos hu] at h
        rw [hu, beq_self_eq_true, if_pos rfl]
        cases i with
        | zero =>
          have hs : offset + 1 = start := Option.some.inj h
          omega
        | succ i =>
          have hi := ih h k
          omega
      · rw [if_neg hu] at h
        rw [if_neg (by simpa using hu)]
        have hi := ih h k
        omega

end LineIndex

namespace Document

open LineIndex

variable {doc : Document}

lemma starts_eq : doc.index.starts.toList = 0 :: startsFrom 0 doc.text.toUnits := by
  rw [doc.index_eq, ofUnits, (extend_toList _ 0 0 _).1]
  rfl

lemma lines_eq : doc.index.lines.toList = linesFrom 0 doc.text.toUnits := by
  rw [doc.index_eq, ofUnits, (extend_toList _ 0 0 _).2]
  rfl

lemma lineAt_natCast {o : Nat} (h : o ≤ doc.length) :
    doc.lineAt o = (doc.text.toUnits.take o).count lineFeed := by
  have hl : o ≤ doc.text.toUnits.length := by rwa [Text.length_toUnits]
  have hc : doc.text.clamp o = o := Nat.min_eq_left h
  rw [lineAt, hc, Array.getD_eq_getD_getElem?, ← Array.getElem?_toList, lines_eq, linesFrom_getElem? 0 hl,
    Option.getD_some, Nat.zero_add]

lemma lineAt_clamp (offset : Int) : doc.lineAt (doc.text.clamp offset : Nat) = doc.lineAt offset := by
  have hc : doc.text.clamp (doc.text.clamp offset : Nat) = doc.text.clamp offset :=
    Nat.min_eq_left (doc.text.clamp_le offset)
  rw [lineAt, hc, lineAt]

lemma lineCount_eq : doc.lineCount = doc.text.toUnits.count lineFeed + 1 := by
  rw [lineCount, ← Array.length_toList, starts_eq, List.length_cons, length_startsFrom]

lemma lineAt_length : doc.lineAt doc.length + 1 = doc.lineCount := by
  rw [lineAt_natCast (Nat.le_refl _), lineCount_eq, length, ← Text.length_toUnits, List.take_length]

@[simp] lemma startOfLine_zero : doc.startOfLine 0 = 0 := by
  rw [startOfLine, Array.getD_eq_getD_getElem?, ← Array.getElem?_toList, starts_eq]
  rfl

lemma startOfLine_of_le {line : Nat} (h : doc.lineCount ≤ line) : doc.startOfLine line = doc.length := by
  rw [startOfLine, Array.getD_eq_getD_getElem?, Array.getElem?_eq_none h, Option.getD_none]

lemma starts_getElem? {line : Nat} (h : line < doc.lineCount) :
    doc.index.starts[line]? = some (doc.startOfLine line) := by
  rw [startOfLine, Array.getD_eq_getD_getElem?, Array.getElem?_eq_getElem h, Option.getD_some]

lemma startsFrom_getElem? {line : Nat} (h : line + 1 < doc.lineCount) :
    (startsFrom 0 doc.text.toUnits)[line]? = some (doc.startOfLine (line + 1)) := by
  rw [← starts_getElem? h, ← Array.getElem?_toList, starts_eq, List.getElem?_cons_succ]

lemma startOfLine_succ {line : Nat} (h : line + 1 < doc.lineCount) :
    ∃ newline, doc.startOfLine (line + 1) = newline + 1 ∧ doc.text.units[newline]? = some lineFeed := by
  obtain ⟨newline, hs, hf⟩ := lineFeed_of_startsFrom (startsFrom_getElem? h)
  rw [Nat.zero_add] at hs
  exact ⟨newline, hs, by rwa [Text.getElem?_toUnits] at hf⟩

lemma startOfLine_le_iff {line o : Nat} (hl : line < doc.lineCount) (ho : o ≤ doc.length) :
    doc.startOfLine line ≤ o ↔ line ≤ doc.lineAt o := by
  cases line with
  | zero => simp
  | succ line =>
    have hs := startsFrom_le_iff (startsFrom_getElem? hl) o
    rw [Nat.zero_add] at hs
    rw [hs, lineAt_natCast ho, Nat.succ_le_iff]

lemma lt_length_of_unit {o : Nat} {u : UInt16} (h : doc.text.units[o]? = some u) : o < doc.length :=
  (Array.getElem?_eq_some_iff.mp h).1

lemma startOfLine_le_length (line : Nat) : doc.startOfLine line ≤ doc.length := by
  cases line with
  | zero => simp
  | succ line =>
    by_cases h : line + 1 < doc.lineCount
    · obtain ⟨newline, hs, hf⟩ := startOfLine_succ h
      have hn := lt_length_of_unit hf
      omega
    · exact Nat.le_of_eq (startOfLine_of_le (Nat.le_of_not_lt h))

lemma lineAt_lt_lineCount (offset : Int) : doc.lineAt offset < doc.lineCount := by
  rw [← lineAt_clamp, lineAt_natCast (doc.text.clamp_le offset), lineCount_eq]
  exact Nat.lt_succ_of_le (List.Sublist.count_le _ (List.take_sublist _ _))

lemma startOfLine_lineAt_le {o : Nat} (h : o ≤ doc.length) : doc.startOfLine (doc.lineAt o) ≤ o :=
  (startOfLine_le_iff (lineAt_lt_lineCount _) h).mpr (Nat.le_refl _)

lemma lineAt_mono {a b : Int} (h : a ≤ b) : doc.lineAt a ≤ doc.lineAt b := by
  have hc : doc.text.clamp a ≤ doc.text.clamp b := by
    simp only [Text.clamp]
    omega
  rw [← lineAt_clamp a, ← lineAt_clamp b]
  have ha := startOfLine_lineAt_le (doc.text.clamp_le a)
  exact (startOfLine_le_iff (lineAt_lt_lineCount _) (doc.text.clamp_le b)).mp (Nat.le_trans ha hc)

lemma lt_of_lineAt_lt {a b : Int} (h : doc.lineAt a < doc.lineAt b) : a < b :=
  Int.lt_of_not_ge fun hba => Nat.not_lt.mpr (lineAt_mono hba) h

lemma lineAt_succ_of_lineFeed {o : Nat} (h : doc.text.units[o]? = some lineFeed) :
    doc.lineAt (o + 1 : Nat) = doc.lineAt o + 1 := by
  have ho := lt_length_of_unit h
  have hf : doc.text.toUnits[o]? = some lineFeed := by rwa [Text.getElem?_toUnits]
  rw [lineAt_natCast ho, lineAt_natCast (Nat.le_of_lt ho), List.take_add_one, List.count_append, hf]
  rfl

lemma lineAt_startOfLine {line : Nat} (h : line < doc.lineCount) : doc.lineAt (doc.startOfLine line) = line := by
  cases line with
  | zero =>
    rw [startOfLine_zero, lineAt_natCast (Nat.zero_le _)]
    rfl
  | succ line =>
    obtain ⟨newline, hs, hf⟩ := startOfLine_succ h
    have hn := lt_length_of_unit hf
    have before := startOfLine_le_iff h (Nat.le_of_lt hn)
    have behind := startOfLine_le_iff h hn
    rw [hs] at before behind ⊢
    rw [lineAt_succ_of_lineFeed hf] at behind ⊢
    omega

lemma lineAt_eq_of_le {line a b : Nat} (hl : doc.startOfLine line ≤ a) (hab : a ≤ b) (hb : b ≤ doc.length)
    (hline : doc.lineAt b = line) : doc.lineAt a = line := by
  have hc : line < doc.lineCount := hline ▸ lineAt_lt_lineCount _
  have low := (startOfLine_le_iff hc (Nat.le_trans hab hb)).mp hl
  have high : doc.lineAt a ≤ doc.lineAt b := lineAt_mono (Int.ofNat_le.mpr hab)
  omega

lemma endOfLine_last {line : Nat} (h : doc.lineCount ≤ line + 1) : doc.endOfLine line = doc.length := by
  rw [endOfLine, Array.getElem?_eq_none h]

lemma endOfLine_break {line : Nat} (h : line + 1 < doc.lineCount) :
    ∃ newline, doc.startOfLine (line + 1) = newline + 1 ∧ doc.text.units[newline]? = some lineFeed ∧
      (doc.endOfLine line = newline ∨
        doc.startOfLine line ≤ doc.endOfLine line ∧ newline = doc.endOfLine line + 1 ∧
          doc.text.units[doc.endOfLine line]? = some carriageReturn) := by
  obtain ⟨newline, hs, hf⟩ := startOfLine_succ h
  refine ⟨newline, hs, hf, ?_⟩
  rw [endOfLine, starts_getElem? h, hs]
  simp only [Nat.add_sub_cancel]
  split
  · next hr =>
    rw [Bool.and_eq_true, decide_eq_true_iff, beq_iff_eq] at hr
    exact .inr ⟨by omega, by omega, hr.2⟩
  · exact .inl rfl

lemma lineAt_newline {line newline : Nat} (h : line + 1 < doc.lineCount)
    (hs : doc.startOfLine (line + 1) = newline + 1) (hf : doc.text.units[newline]? = some lineFeed) :
    doc.lineAt newline = line := by
  have hl := lineAt_startOfLine h
  rw [hs, lineAt_succ_of_lineFeed hf] at hl
  exact Nat.succ.inj hl

lemma lineEnd_above {line : Nat} (h : line + 1 < doc.lineCount) :
    doc.lineEnd ((doc.startOfLine (line + 1) : Int) - 1) = doc.endOfLine line ∧
      doc.endOfLine line < doc.startOfLine (line + 1) := by
  obtain ⟨newline, hs, hf, he⟩ := endOfLine_break h
  have hn : ((newline + 1 : Nat) : Int) - 1 = newline := by omega
  rw [hs, hn, lineEnd, lineAt_newline h hs hf]
  exact ⟨rfl, by omega⟩

lemma lineEnd_before {o : Nat} (ho : o ≤ doc.length) (h : 0 < doc.lineAt o) :
    doc.lineEnd ((doc.lineStart o : Int) - 1) = doc.endOfLine (doc.lineAt o - 1) ∧
      doc.endOfLine (doc.lineAt o - 1) ≤ o := by
  obtain ⟨line, hline⟩ := Nat.exists_eq_succ_of_ne_zero (Nat.ne_of_gt h)
  have hlast := doc.lineAt_lt_lineCount o
  have hstart := startOfLine_lineAt_le ho
  rw [hline] at hlast hstart
  obtain ⟨he, hb⟩ := lineEnd_above hlast
  rw [lineStart, hline]
  exact ⟨he, Nat.le_of_lt (Nat.lt_of_lt_of_le hb hstart)⟩

lemma lineStart_eq_iff {a b : Int} : doc.lineStart a = doc.lineStart b ↔ doc.lineAt a = doc.lineAt b := by
  rw [lineStart, lineStart]
  refine ⟨fun h => ?_, fun h => by rw [h]⟩
  rw [← lineAt_startOfLine (doc.lineAt_lt_lineCount a), h, lineAt_startOfLine (doc.lineAt_lt_lineCount b)]

lemma startOfLine_le_endOfLine {line : Nat} (h : line < doc.lineCount) :
    doc.startOfLine line ≤ doc.endOfLine line ∧ doc.lineAt (doc.endOfLine line) = line ∧
      doc.endOfLine line ≤ doc.length := by
  by_cases hl : line + 1 < doc.lineCount
  · obtain ⟨newline, hs, hf, he | ⟨hle, he, hr⟩⟩ := endOfLine_break hl
    · have hn := lineAt_newline hl hs hf
      have hb := lt_length_of_unit hf
      rw [he]
      exact ⟨(startOfLine_le_iff h (Nat.le_of_lt hb)).mpr (Nat.le_of_eq hn.symm), hn, Nat.le_of_lt hb⟩
    · have hb := lt_length_of_unit hf
      have hn := lineAt_newline hl hs hf
      exact ⟨hle, lineAt_eq_of_le hle (by omega) (Nat.le_of_lt hb) hn, Nat.le_of_lt (lt_length_of_unit hr)⟩
  · rw [endOfLine_last (Nat.le_of_not_lt hl)]
    have hc := doc.lineAt_length
    exact ⟨startOfLine_le_length line, by omega, Nat.le_refl _⟩

lemma break_of_endOfLine_le {line o : Nat} (hl : doc.endOfLine line ≤ o) (ho : o < doc.length)
    (hline : doc.lineAt o = line) :
    doc.text.units[o]? = some lineFeed ∨ doc.text.units[o]? = some carriageReturn := by
  by_cases h : line + 1 < doc.lineCount
  · obtain ⟨newline, hs, hf, he⟩ := endOfLine_break h
    have before := startOfLine_le_iff h (Nat.le_of_lt ho)
    have hn : o ≤ newline := by omega
    rcases he with he | ⟨_, he, hr⟩
    · obtain rfl : o = newline := by omega
      exact .inl hf
    · obtain rfl | rfl : o = newline ∨ o = doc.endOfLine line := by omega
      · exact .inl hf
      · exact .inr hr
  · rw [endOfLine_last (Nat.le_of_not_lt h)] at hl
    omega

lemma nextLineStart_eq (offset : Int) : doc.nextLineStart offset = doc.startOfLine (doc.lineAt offset + 1) := by
  rw [nextLineStart, lineEnd]
  by_cases h : doc.lineAt offset + 1 < doc.lineCount
  · obtain ⟨newline, hs, hf, he | ⟨_, he, hr⟩⟩ := endOfLine_break h
    · have hn : (some lineFeed == some carriageReturn) = false := by decide
      simp [he, hf, hn, hs]
    · rw [he] at hf
      simp only [hr, beq_self_eq_true, if_true, hf, hs, he]
  · have hl := Nat.le_of_not_lt h
    have hn : doc.text.units[doc.length]? = none := Array.getElem?_eq_none (Nat.le_refl _)
    rw [endOfLine_last hl, startOfLine_of_le hl]
    simp [hn]

lemma nextLineStart_startOfLine {line : Nat} (h : line < doc.lineCount) :
    doc.nextLineStart (doc.startOfLine line) = doc.startOfLine (line + 1) := by
  rw [nextLineStart_eq, lineAt_startOfLine h]

lemma lineStart_above {line : Nat} (h : line + 1 < doc.lineCount) :
    doc.lineStart ((doc.startOfLine (line + 1) : Int) - 1) = doc.startOfLine line := by
  obtain ⟨newline, hs, hf⟩ := startOfLine_succ h
  have before : ((newline + 1 : Nat) : Int) - 1 = newline := by omega
  rw [hs, before, lineStart, lineAt_newline h hs hf]

lemma lineAt_nextLineStart {offset : Int} (h : doc.nextLineStart offset < doc.length) :
    doc.lineAt (doc.nextLineStart offset) = doc.lineAt offset + 1 := by
  rw [nextLineStart_eq] at h ⊢
  apply lineAt_startOfLine
  apply Nat.lt_of_not_le
  intro hl
  rw [startOfLine_of_le hl] at h
  exact Nat.lt_irrefl _ h

lemma skipIndent_bounds (room offset : Nat) :
    offset ≤ doc.skipIndent room offset ∧ doc.skipIndent room offset ≤ offset + room := by
  induction room generalizing offset with
  | zero => simp [skipIndent]
  | succ room ih =>
    rw [skipIndent]
    have hi := ih (offset + 1)
    split <;> omega

lemma contentOfLine_bounds {line : Nat} (h : line < doc.lineCount) :
    doc.startOfLine line ≤ doc.contentOfLine line ∧ doc.contentOfLine line ≤ doc.endOfLine line := by
  obtain ⟨hl, _⟩ := startOfLine_le_endOfLine h
  have hb := doc.skipIndent_bounds (doc.endOfLine line - doc.startOfLine line) (doc.startOfLine line)
  simp only [contentOfLine]
  omega

lemma lineAt_contentOfLine {line : Nat} (h : line < doc.lineCount) :
    doc.lineAt (doc.contentOfLine line) = line := by
  obtain ⟨hl, hr⟩ := contentOfLine_bounds h
  obtain ⟨_, he, hb⟩ := startOfLine_le_endOfLine h
  exact lineAt_eq_of_le hl hr hb he

lemma skipIndent_skipIndent (room offset : Nat) :
    doc.skipIndent (doc.skipIndent room offset - offset) offset = doc.skipIndent room offset := by
  induction room generalizing offset with
  | zero =>
    rw [skipIndent, Nat.sub_self]
    rfl
  | succ room ih =>
    rw [skipIndent]
    split
    · next hi =>
      have hb := (doc.skipIndent_bounds room (offset + 1)).1
      have hroom : doc.skipIndent room (offset + 1) - offset =
          doc.skipIndent room (offset + 1) - (offset + 1) + 1 := by
        omega
      rw [hroom, skipIndent, if_pos hi, ih]
    · rw [Nat.sub_self]
      rfl

lemma onlyBlanksBefore_contentOfLine {line : Nat} (h : line < doc.lineCount) :
    doc.onlyBlanksBefore (doc.contentOfLine line) = true := by
  have skipped : ((doc.contentOfLine line : Int) - doc.startOfLine line).toNat =
      doc.contentOfLine line - doc.startOfLine line := by omega
  rw [onlyBlanksBefore, lineStart, lineAt_contentOfLine h, skipped]
  simp only [contentOfLine, skipIndent_skipIndent, Int.le_refl, decide_true]

lemma contentOfLine_lt {line other : Nat} (h : line < other) (ho : other < doc.lineCount) :
    doc.contentOfLine line < doc.contentOfLine other := by
  refine Int.ofNat_lt.mp (@lt_of_lineAt_lt doc _ _ ?_)
  rwa [lineAt_contentOfLine (Nat.lt_trans h ho), lineAt_contentOfLine ho]

lemma firstNonBlank_mono {a b : Int} (h : a ≤ b) : doc.firstNonBlank a ≤ doc.firstNonBlank b := by
  rw [firstNonBlank, firstNonBlank]
  rcases Nat.lt_or_eq_of_le (doc.lineAt_mono h) with above | same
  · exact Nat.le_of_lt (contentOfLine_lt above (lineAt_lt_lineCount b))
  · exact Nat.le_of_eq (congrArg doc.contentOfLine same)

lemma lastContent?_bounds {room stop o : Nat} (hr : room ≤ stop) (h : doc.lastContent? room stop = some o) :
    stop ≤ o + room ∧ o < stop ∧ ∀ q, o < q → q < stop → doc.text.units[q]?.any isIndent = true := by
  induction room generalizing stop with
  | zero => simp [lastContent?] at h
  | succ room ih =>
    rw [lastContent?] at h
    split at h
    · next hi =>
      obtain ⟨hl, hs, hq⟩ := ih (by omega) h
      refine ⟨by omega, by omega, fun q hoq hqs => ?_⟩
      by_cases he : q = stop - 1
      · rwa [he]
      · exact hq q hoq (by omega)
    · have ho : stop - 1 = o := Option.some.inj h
      exact ⟨by omega, by omega, fun q hoq hqs => by omega⟩

def LastOnLine (doc : Document) (place : Nat) : Prop :=
  place < doc.lineEnd place ∧ ∀ q, place < q → q < doc.lineEnd place →
    doc.text.units[q]?.any isIndent = true

def FirstOnLine (doc : Document) (place : Nat) : Prop :=
  ∀ q, doc.lineStart place ≤ q → q < place → doc.text.units[q]?.any isIndent = true

lemma lineAt_lastNonBlank? {offset : Int} {o : Nat} (h : doc.lastNonBlank? offset = some o) :
    doc.lineAt o = doc.lineAt offset ∧ doc.LastOnLine o := by
  obtain ⟨hl, he, hb⟩ := startOfLine_le_endOfLine (doc.lineAt_lt_lineCount offset)
  obtain ⟨hs, ho, hi⟩ := lastContent?_bounds (Nat.sub_le _ _) h
  rw [lineStart] at hs
  rw [lineEnd] at hs ho hi
  have hline := lineAt_eq_of_le (by omega) (Nat.le_of_lt ho) hb he
  rw [LastOnLine, lineEnd, hline]
  exact ⟨rfl, ho, hi⟩

lemma LastOnLine.lineAt_lt {o q : Nat} {u : UInt16} (last : doc.LastOnLine o) (hoq : o < q)
    (hu : doc.text.units[q]? = some u) (indent : isIndent u = false) (feed : u ≠ lineFeed)
    (ret : u ≠ carriageReturn) :
    doc.lineAt o < doc.lineAt q := by
  have hq := lt_length_of_unit hu
  apply Nat.lt_of_le_of_ne (lineAt_mono (Int.ofNat_le.mpr (Nat.le_of_lt hoq)))
  intro hsame
  by_cases hend : q < doc.lineEnd o
  · have hn := last.2 q hoq hend
    rw [hu, Option.any_some, indent] at hn
    contradiction
  · rcases break_of_endOfLine_le (Nat.le_of_not_lt hend) hq hsame.symm with hf | hr
    · exact feed (Option.some.inj (hu.symm.trans hf))
    · exact ret (Option.some.inj (hu.symm.trans hr))

lemma blank_of_skipIndent {room offset q : Nat} (hq : offset ≤ q) (h : q < doc.skipIndent room offset) :
    doc.text.units[q]?.any isIndent = true := by
  induction room generalizing offset with
  | zero => exact absurd hq (Nat.not_le_of_lt h)
  | succ room ih =>
    rw [skipIndent] at h
    split at h
    · next hi =>
      rcases Nat.eq_or_lt_of_le hq with rfl | hlt
      · exact hi
      · exact ih hlt h
    · exact absurd hq (Nat.not_le_of_lt h)

lemma firstOnLine_contentOfLine {line : Nat} (h : line < doc.lineCount) :
    doc.FirstOnLine (doc.contentOfLine line) := by
  intro q hs hq
  rw [lineStart, lineAt_contentOfLine h] at hs
  exact blank_of_skipIndent hs hq

lemma skipIndent_le {room offset q : Nat} (hq : offset ≤ q) (h : doc.text.units[q]?.any isIndent = false) :
    doc.skipIndent room offset ≤ q := by
  induction room generalizing offset with
  | zero => exact hq
  | succ room ih =>
    rw [skipIndent]
    split
    · next hi =>
      have hne : offset ≠ q := by
        rintro rfl
        rw [h] at hi
        contradiction
      exact ih (Nat.lt_of_le_of_ne hq hne)
    · exact hq

lemma content_of_lastContent? {room stop o : Nat} (h : doc.lastContent? room stop = some o) :
    doc.text.units[o]?.any isIndent = false := by
  induction room generalizing stop with
  | zero => simp [lastContent?] at h
  | succ room ih =>
    rw [lastContent?] at h
    split at h
    · exact ih h
    · next hi =>
      obtain rfl := Option.some.inj h
      exact Bool.eq_false_iff.mpr hi

lemma firstNonBlank_le_lastNonBlank? {offset : Int} {o : Nat} (h : doc.lastNonBlank? offset = some o) :
    doc.firstNonBlank offset ≤ o ∧ o < doc.lineEnd offset := by
  obtain ⟨hl, _⟩ := startOfLine_le_endOfLine (doc.lineAt_lt_lineCount offset)
  obtain ⟨hs, ho, _⟩ := lastContent?_bounds (Nat.sub_le _ _) h
  rw [lineStart, lineEnd] at hs
  exact ⟨skipIndent_le (by omega) (content_of_lastContent? h), ho⟩

def Contains (doc : Document) (offset : Int) : Prop := 0 ≤ offset ∧ offset ≤ doc.length

lemma contains_natCast {o : Nat} (h : o ≤ doc.length) : doc.Contains o :=
  ⟨Int.natCast_nonneg o, Int.ofNat_le.mpr h⟩

lemma Contains.exists_nat {offset : Int} (h : doc.Contains offset) :
    ∃ o : Nat, offset = o ∧ o ≤ doc.length := by
  obtain ⟨o, rfl⟩ := Int.eq_ofNat_of_zero_le h.1
  exact ⟨o, rfl, Int.ofNat_le.mp h.2⟩

lemma endOfLine_le_length (line : Nat) : doc.endOfLine line ≤ doc.length := by
  by_cases h : line < doc.lineCount
  · exact (startOfLine_le_endOfLine h).2.2
  · exact Nat.le_of_eq (endOfLine_last (by omega))

lemma contentOfLine_of_le {line : Nat} (h : doc.lineCount ≤ line) :
    doc.contentOfLine line = doc.length ∧ doc.endOfLine line = doc.length := by
  have hs := startOfLine_of_le h
  have he := endOfLine_last (Nat.le_succ_of_le h)
  refine ⟨?_, he⟩
  simp only [contentOfLine, hs, he, Nat.sub_self]
  rfl

lemma contentOfLine_le_length (line : Nat) : doc.contentOfLine line ≤ doc.length := by
  by_cases h : line < doc.lineCount
  · exact Nat.le_trans (contentOfLine_bounds h).2 (endOfLine_le_length line)
  · exact Nat.le_of_eq (contentOfLine_of_le (Nat.le_of_not_lt h)).1

end Document

end Counterpart
