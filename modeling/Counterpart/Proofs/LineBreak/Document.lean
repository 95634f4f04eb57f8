import Counterpart.Proofs.Document.Lines
import Counterpart.Proofs.LineBreak.Text

namespace Counterpart

open Counterpart.Units

namespace Document

structure Widens (doc wide : Document) : Prop where
  text : wide.text = doc.text.widen
  language : wide.language = doc.language
  plain : carriageReturn ∉ doc.text.toUnits

lemma exists_unit {doc : Document} {o : Nat} (ho : o < doc.length) : ∃ u, doc.text.units[o]? = some u :=
  ⟨_, Array.getElem?_eq_getElem ho⟩

lemma unit_of_line {doc : Document} {line q : Nat} (hs : doc.startOfLine line ≤ q)
    (he : q < doc.endOfLine line) :
    ∃ u, doc.text.units[q]? = some u ∧ u ≠ lineFeed := by
  have hl : line < doc.lineCount := by
    apply Nat.lt_of_not_le
    intro hle
    rw [startOfLine_of_le hle] at hs
    exact absurd (Nat.lt_of_le_of_lt hs he) (Nat.not_lt.mpr (endOfLine_le_length line))
  obtain ⟨_, hline, hb⟩ := startOfLine_le_endOfLine hl
  have hq : q < doc.length := Nat.lt_of_lt_of_le he hb
  refine ⟨_, Array.getElem?_eq_getElem hq, fun hf => ?_⟩
  have here := lineAt_eq_of_le hs (Nat.le_of_lt he) hb hline
  have next : doc.lineAt (q + 1 : Nat) = line := lineAt_eq_of_le (Nat.le_succ_of_le hs) he hb hline
  have step : doc.lineAt _ = _ := lineAt_succ_of_lineFeed ((Array.getElem?_eq_getElem hq).trans (congrArg some hf))
  omega

lemma place_eq_add {doc : Document} {o : Nat} (ho : o ≤ doc.length) :
    doc.text.toUnits.place o = o + doc.lineAt o := by
  rw [lineAt_natCast ho, Units.place]

lemma place_sub_place {doc : Document} {line a b : Nat} (hl : line < doc.lineCount)
    (hs : doc.startOfLine line ≤ a)
    (hab : a ≤ b) (hb : b ≤ doc.endOfLine line) :
    doc.text.toUnits.place b - doc.text.toUnits.place a = b - a := by
  obtain ⟨_, hline, hlen⟩ := startOfLine_le_endOfLine hl
  rw [place_eq_add (Nat.le_trans hb hlen), place_eq_add (Nat.le_trans (Nat.le_trans hab hb) hlen),
    lineAt_eq_of_le (Nat.le_trans hs hab) hb hlen hline, lineAt_eq_of_le hs (Nat.le_trans hab hb) hlen hline]
  omega

namespace Widens

open LineIndex

variable {doc wide : Document} (h : doc.Widens wide)
include h

lemma toUnits_eq : wide.text.toUnits = doc.text.toUnits.widen := by
  rw [h.text, Text.widen, Text.toUnits_ofUnits]

lemma length_eq_widen : wide.length = (widen doc.text.toUnits).length := by
  rw [length, ← Text.length_toUnits, h.toUnits_eq]

lemma length_eq : wide.length = doc.text.toUnits.place doc.length := by
  rw [h.length_eq_widen, ← place_length, Text.length_toUnits]
  rfl

lemma lineCount_eq_lineCount : wide.lineCount = doc.lineCount := by
  rw [lineCount_eq, lineCount_eq, h.toUnits_eq, count_widen]

lemma place_le_length {o : Nat} (ho : o ≤ doc.length) : doc.text.toUnits.place o ≤ wide.length := by
  rw [h.length_eq]
  exact (place_strictMono _).monotone ho

lemma lineAt_place_natCast {o : Nat} (ho : o ≤ doc.length) :
    wide.lineAt (doc.text.toUnits.place o : Nat) = doc.lineAt o := by
  have hu : o ≤ doc.text.toUnits.length := by rwa [Text.length_toUnits]
  rw [lineAt_natCast (h.place_le_length ho), lineAt_natCast ho, h.toUnits_eq, take_place hu, count_widen]

lemma lineAt_place (offset : Int) : wide.lineAt (doc.text.place offset) = doc.lineAt offset := by
  rcases Int.lt_or_le offset 0 with hneg | hpos
  · have clamp : ∀ document : Document, document.text.clamp offset = 0 := fun document => by
      rw [Text.clamp, Int.toNat_of_nonpos (Int.le_of_lt hneg), Nat.zero_min]
    rw [Text.place_of_nonpos _ (Int.le_of_lt hneg), ← lineAt_clamp, ← doc.lineAt_clamp, clamp, clamp]
    exact h.lineAt_place_natCast (Nat.zero_le _)
  · obtain ⟨o, rfl⟩ := Int.eq_ofNat_of_zero_le hpos
    rw [Text.place_natCast]
    rcases Nat.le_total o doc.length with ho | ho
    · exact h.lineAt_place_natCast ho
    · have hw : wide.length ≤ doc.text.toUnits.place o := by
        rw [h.length_eq]
        exact (place_strictMono _).monotone ho
      have clamp : ∀ {document : Document} {p : Nat}, document.length ≤ p →
          document.text.clamp p = document.length :=
        fun hp => Nat.min_eq_right hp
      rw [← lineAt_clamp, ← doc.lineAt_clamp, clamp hw, clamp ho, h.length_eq]
      exact h.lineAt_place_natCast (Nat.le_refl _)

lemma unit_place {o : Nat} {u : UInt16} (hu : doc.text.units[o]? = some u) (solid : u ≠ lineFeed) :
    wide.text.units[doc.text.toUnits.place o]? = some u := by
  rw [← Text.getElem?_toUnits] at hu ⊢
  rw [h.toUnits_eq]
  exact getElem?_place hu solid

lemma units_place_lineFeed {o : Nat} (hf : doc.text.units[o]? = some lineFeed) :
    wide.text.units[doc.text.toUnits.place o]? = some carriageReturn ∧
      wide.text.units[doc.text.toUnits.place o + 1]? = some lineFeed := by
  rw [← Text.getElem?_toUnits] at hf
  rw [← Text.getElem?_toUnits, ← Text.getElem?_toUnits, h.toUnits_eq]
  exact getElem?_place_lineFeed hf

lemma unit_ne_carriageReturn (o : Nat) : doc.text.units[o]? ≠ some carriageReturn := by
  intro hr
  rw [← Text.getElem?_toUnits] at hr
  exact h.plain (List.mem_of_getElem? hr)

lemma lineAt_lineFeed {o : Nat} (hf : doc.text.units[o]? = some lineFeed) :
    wide.lineAt (doc.text.toUnits.place o + 1 : Nat) = doc.lineAt o := by
  have ho : o ≤ doc.length := Nat.le_of_lt (lt_length_of_unit hf)
  obtain ⟨hr, hn⟩ := h.units_place_lineFeed hf
  have hp : doc.text.toUnits.place o + 1 ≤ wide.length := Nat.le_of_lt (lt_length_of_unit hn)
  rw [← h.lineAt_place_natCast ho, lineAt_natCast hp, lineAt_natCast (Nat.le_of_succ_le hp), List.take_add_one,
    List.count_append, Text.getElem?_toUnits, hr]
  rfl

lemma startOfLine_eq (line : Nat) : wide.startOfLine line = doc.text.toUnits.place (doc.startOfLine line) := by
  by_cases hl : line < doc.lineCount
  · have hw : line < wide.lineCount := h.lineCount_eq_lineCount ▸ hl
    cases line with
    | zero => rw [startOfLine_zero, startOfLine_zero, place_zero]
    | succ line =>
      obtain ⟨newline, hs, hf⟩ := startOfLine_succ hl
      have hb := lt_length_of_unit hf
      have hn := (lt_length_of_unit (h.units_place_lineFeed hf).2)
      have behind : wide.startOfLine (line + 1) ≤ doc.text.toUnits.place (newline + 1) := by
        have hline : doc.lineAt (newline + 1 : Nat) = line + 1 := hs ▸ lineAt_startOfLine hl
        rw [startOfLine_le_iff hw (h.place_le_length hb), h.lineAt_place_natCast hb, hline]
      have ahead : ¬ wide.startOfLine (line + 1) ≤ doc.text.toUnits.place newline + 1 := by
        rw [startOfLine_le_iff hw (Nat.le_of_lt hn), h.lineAt_lineFeed hf, lineAt_newline hl hs hf]
        exact Nat.not_succ_le_self line
      rw [hs]
      rw [place_succ (doc.text.getElem?_toUnits newline ▸ hf), if_pos rfl] at behind ⊢
      omega
  · have hle := Nat.le_of_not_lt hl
    rw [startOfLine_of_le hle, startOfLine_of_le (h.lineCount_eq_lineCount.symm ▸ hle), h.length_eq]

lemma endOfLine_eq (line : Nat) : wide.endOfLine line = doc.text.toUnits.place (doc.endOfLine line) := by
  by_cases hl : line + 1 < doc.lineCount
  · obtain ⟨newline, hs, hf, he | ⟨_, _, hr⟩⟩ := endOfLine_break hl
    · obtain ⟨hr, _⟩ := h.units_place_lineFeed hf
      have hw := h.startOfLine_eq (line + 1)
      rw [hs, place_succ (doc.text.getElem?_toUnits newline ▸ hf), if_pos rfl] at hw
      have hstart : wide.startOfLine line < doc.text.toUnits.place newline + 1 := by
        rw [h.startOfLine_eq, Nat.lt_succ_iff, ← he]
        exact (place_strictMono _).monotone (startOfLine_le_endOfLine (Nat.lt_of_succ_lt hl)).1
      rw [he, endOfLine, starts_getElem? (h.lineCount_eq_lineCount.symm ▸ hl), hw]
      simp [hstart, hr]
    · exact absurd hr (h.unit_ne_carriageReturn _)
  · have hle := Nat.le_of_not_lt hl
    rw [endOfLine_last hle, endOfLine_last (h.lineCount_eq_lineCount.symm ▸ hle), h.length_eq]

lemma le_endOfLine {o : Nat} (ho : o ≤ doc.length) : o ≤ doc.endOfLine (doc.lineAt o) := by
  by_cases hl : doc.lineAt o + 1 < doc.lineCount
  · obtain ⟨newline, hs, _, he | ⟨_, _, hr⟩⟩ := endOfLine_break hl
    · have below : ¬ doc.startOfLine (doc.lineAt o + 1) ≤ o := fun hle =>
        absurd ((startOfLine_le_iff hl ho).mp hle) (Nat.not_succ_le_self _)
      omega
    · exact absurd hr (h.unit_ne_carriageReturn _)
  · rwa [endOfLine_last (Nat.le_of_not_lt hl)]

lemma skipIndent_place {line : Nat} (room offset : Nat) (hs : doc.startOfLine line ≤ offset)
    (he : offset + room ≤ doc.endOfLine line) :
    wide.skipIndent room (doc.text.toUnits.place offset) =
      doc.text.toUnits.place (doc.skipIndent room offset) := by
  induction room generalizing offset with
  | zero => rfl
  | succ room ih =>
    obtain ⟨u, hu, solid⟩ := unit_of_line hs (by omega)
    have next := ih (offset + 1) (by omega) (by omega)
    rw [place_succ (doc.text.getElem?_toUnits offset ▸ hu), if_neg solid] at next
    rw [skipIndent, skipIndent, h.unit_place hu solid, hu, next]
    split <;> rfl

lemma contentOfLine_eq (line : Nat) : wide.contentOfLine line =
    doc.text.toUnits.place (doc.contentOfLine line) := by
  by_cases hl : line < doc.lineCount
  · obtain ⟨hs, _⟩ := startOfLine_le_endOfLine hl
    rw [contentOfLine, contentOfLine, h.endOfLine_eq, h.startOfLine_eq,
      place_sub_place hl (Nat.le_refl _) hs (Nat.le_refl _)]
    exact h.skipIndent_place _ _ (Nat.le_refl _) (by omega)
  · have hle := Nat.le_of_not_lt hl
    rw [(contentOfLine_of_le hle).1, (contentOfLine_of_le (h.lineCount_eq_lineCount.symm ▸ hle)).1, h.length_eq]

lemma contentUnits_eq (line : Nat) : wide.contentUnits line = doc.contentUnits line := by
  have order : doc.startOfLine line ≤ doc.contentOfLine line ∧
      doc.contentOfLine line ≤ doc.endOfLine line := by
    by_cases hl : line < doc.lineCount
    · exact contentOfLine_bounds hl
    · obtain ⟨hc, he⟩ := contentOfLine_of_le (Nat.le_of_not_lt hl)
      rw [hc, he]
      exact ⟨startOfLine_le_length line, Nat.le_refl _⟩
  have hlen : doc.endOfLine line ≤ doc.text.toUnits.length := by
    rw [Text.length_toUnits]
    exact endOfLine_le_length line
  have kept : ∀ b, doc.contentOfLine line ≤ b →
      doc.text.toUnits.place (doc.contentOfLine line) =
        place (doc.text.toUnits.take b) (doc.contentOfLine line) := by
    intro b hb
    rw [Units.place, Units.place, List.take_take, Nat.min_eq_left hb]
  have inline : lineFeed ∉ (doc.text.toUnits.take (doc.endOfLine line)).drop (doc.contentOfLine line) := by
    intro hm
    obtain ⟨i, hi⟩ := List.getElem?_of_mem hm
    rw [List.getElem?_drop] at hi
    obtain ⟨hb, _⟩ := List.getElem?_eq_some_iff.mp hi
    rw [List.length_take] at hb
    obtain ⟨u, hu, solid⟩ := unit_of_line (show doc.startOfLine line ≤ doc.contentOfLine line + i by omega)
      (show _ < doc.endOfLine line by omega)
    rw [List.getElem?_take_of_lt (by omega), Text.getElem?_toUnits, hu] at hi
    exact solid (Option.some.inj hi)
  rw [contentUnits, contentUnits, Text.extract_eq, Text.extract_eq, h.toUnits_eq, h.contentOfLine_eq,
    h.endOfLine_eq,
    take_place hlen, kept _ order.2, drop_place (by rw [List.length_take]; omega), widen_eq_self inline]

lemma lineStart_place (offset : Int) :
    wide.lineStart (doc.text.place offset) = doc.text.toUnits.place (doc.lineStart offset) := by
  rw [lineStart, h.lineAt_place, h.startOfLine_eq, lineStart]

lemma lineEnd_place (offset : Int) :
    wide.lineEnd (doc.text.place offset) = doc.text.toUnits.place (doc.lineEnd offset) := by
  rw [lineEnd, h.lineAt_place, h.endOfLine_eq, lineEnd]

lemma firstNonBlank_place (offset : Int) :
    wide.firstNonBlank (doc.text.place offset) = doc.text.toUnits.place (doc.firstNonBlank offset) := by
  rw [firstNonBlank, h.lineAt_place, h.contentOfLine_eq, firstNonBlank]

lemma nextLineStart_place (offset : Int) :
    wide.nextLineStart (doc.text.place offset) = doc.text.toUnits.place (doc.nextLineStart offset) := by
  rw [nextLineStart_eq, nextLineStart_eq, h.lineAt_place, h.startOfLine_eq]

lemma lastContent?_place {line : Nat} (room stop : Nat) (hs : doc.startOfLine line + room ≤ stop)
    (he : stop ≤ doc.endOfLine line) :
    wide.lastContent? room (doc.text.toUnits.place stop) =
      (doc.lastContent? room stop).map doc.text.toUnits.place := by
  induction room generalizing stop with
  | zero => rfl
  | succ room ih =>
    obtain ⟨q, rfl⟩ := Nat.exists_eq_add_one_of_ne_zero (Nat.ne_zero_of_lt (show 0 < stop by omega))
    obtain ⟨u, hu, solid⟩ := unit_of_line (show doc.startOfLine line ≤ q by omega) he
    have next := ih q (by omega) (by omega)
    rw [place_succ (doc.text.getElem?_toUnits q ▸ hu), if_neg solid]
    rw [lastContent?, lastContent?, Nat.add_sub_cancel, Nat.add_sub_cancel, h.unit_place hu solid, hu, next]
    split <;> rfl

lemma lastNonBlank?_place (offset : Int) :
    wide.lastNonBlank? (doc.text.place offset) = (doc.lastNonBlank? offset).map doc.text.toUnits.place := by
  have hl := doc.lineAt_lt_lineCount offset
  obtain ⟨hs, _⟩ := startOfLine_le_endOfLine hl
  rw [lastNonBlank?, lastNonBlank?, h.lineEnd_place, h.lineStart_place, lineEnd, lineStart,
    place_sub_place hl (Nat.le_refl _) hs (Nat.le_refl _)]
  exact h.lastContent?_place _ _ (by omega) (Nat.le_refl _)

lemma onlyBlanksBefore_place {o : Nat} (ho : o ≤ doc.length) :
    wide.onlyBlanksBefore (doc.text.toUnits.place o : Nat) = doc.onlyBlanksBefore o := by
  have hl := doc.lineAt_lt_lineCount o
  have hs := startOfLine_lineAt_le ho
  have he := h.le_endOfLine ho
  have hroom := place_sub_place hl (Nat.le_refl _) hs he
  have skips := h.skipIndent_place (o - doc.startOfLine (doc.lineAt o)) _ (Nat.le_refl _)
    (show doc.startOfLine (doc.lineAt o) + _ ≤ doc.endOfLine (doc.lineAt o) by omega)
  have toNat : ∀ a b : Nat, ((b : Int) - a).toNat = b - a := by omega
  rw [← Text.place_natCast, onlyBlanksBefore, onlyBlanksBefore, h.lineStart_place, lineStart, Text.place_natCast]
  rw [toNat, toNat, hroom, skips]
  rw [decide_eq_decide, Int.ofNat_le, Int.ofNat_le]
  exact (place_strictMono _).le_iff_le

end Widens

end Document

end Counterpart
