import Counterpart.Proofs.Document.Lines
import Mathlib.Data.List.Iterate

namespace Counterpart

namespace Document

variable {doc : Document}

def BeginsLine (doc : Document) : Nat → Prop
  | 0 => True
  | feed + 1 => doc.text.units[feed]? = some lineFeed

lemma startOfLine_lt_succ {line : Nat} (h : line + 1 < doc.lineCount) :
    doc.startOfLine line < doc.startOfLine (line + 1) := by
  have inside := startOfLine_le_endOfLine (Nat.lt_of_succ_lt h)
  exact Nat.lt_of_le_of_lt inside.1 (lineEnd_above h).2

lemma startOfLine_lt {line below : Nat} (hl : line < below) (hb : below < doc.lineCount) :
    doc.startOfLine line < doc.startOfLine below := by
  induction below with
  | zero => contradiction
  | succ below ih =>
    have step := startOfLine_lt_succ hb
    rcases Nat.lt_succ_iff_lt_or_eq.mp hl with above | rfl
    · exact Nat.lt_trans (ih above (Nat.lt_of_succ_lt hb)) step
    · exact step

lemma startOfLine_mono {line below : Nat} (hl : line ≤ below) (hb : below < doc.lineCount) :
    doc.startOfLine line ≤ doc.startOfLine below := by
  rcases Nat.eq_or_lt_of_le hl with rfl | above
  · exact Nat.le_refl _
  · exact Nat.le_of_lt (startOfLine_lt above hb)

lemma beginsLine_iff {o : Nat} : doc.BeginsLine o ↔ ∃ line < doc.lineCount, doc.startOfLine line = o := by
  constructor
  · intro begins
    cases o with
    | zero => exact ⟨0, Nat.zero_lt_of_lt (doc.lineAt_lt_lineCount 0), startOfLine_zero⟩
    | succ feed =>
      have below := lineAt_succ_of_lineFeed begins
      have inside : feed + 1 ≤ doc.length := lt_length_of_unit begins
      have read := doc.lineAt_lt_lineCount (feed + 1 : Nat)
      refine ⟨_, read, Nat.le_antisymm (startOfLine_lineAt_le inside) (Nat.lt_of_not_le fun before => ?_)⟩
      have same := (startOfLine_le_iff read (Nat.le_of_succ_le inside)).mp before
      omega
  · rintro ⟨line, hl, rfl⟩
    cases line with
    | zero =>
      rw [startOfLine_zero]
      trivial
    | succ line =>
      obtain ⟨feed, hs, hf⟩ := startOfLine_succ hl
      rw [hs]
      exact hf

def above (doc : Document) (start : Nat) : Nat := doc.lineStart ((start : Int) - 1)

def below (doc : Document) (start : Nat) : Nat := doc.nextLineStart start

def walkDown (doc : Document) : List Nat := List.iterate doc.below 0 doc.lineCount

def walkUp (doc : Document) (start : Nat) : List Nat := List.iterate doc.above start (doc.lineAt start + 1)

lemma iterate_below {n : Nat} (h : n ≤ doc.lineCount) : doc.below^[n] 0 = doc.startOfLine n := by
  induction n with
  | zero => rw [Function.iterate_zero_apply, startOfLine_zero]
  | succ n ih =>
    rw [Function.iterate_succ_apply', ih (Nat.le_of_succ_le h)]
    exact nextLineStart_startOfLine h

lemma iterate_above {line n : Nat} (hl : line < doc.lineCount) (hn : n ≤ line) :
    doc.above^[n] (doc.startOfLine line) = doc.startOfLine (line - n) := by
  induction n with
  | zero => rfl
  | succ n ih =>
    have next : line - n = line - (n + 1) + 1 := by omega
    rw [Function.iterate_succ_apply', ih (Nat.le_of_succ_le hn), next]
    exact lineStart_above (by omega)

lemma iterate_below_length {n : Nat} (h : doc.lineCount ≤ n) : doc.below^[n] 0 = doc.length := by
  induction n, h using Nat.le_induction with
  | base =>
    rw [iterate_below (Nat.le_refl _)]
    exact startOfLine_of_le (Nat.le_refl _)
  | succ n _ ih =>
    rw [Function.iterate_succ_apply', ih, below, nextLineStart_eq, lineAt_length]
    exact startOfLine_of_le (Nat.le_refl _)

lemma mem_walkDown {o : Nat} : o ∈ doc.walkDown ↔ doc.BeginsLine o := by
  rw [walkDown, List.mem_iterate, beginsLine_iff]
  apply exists_congr
  intro line
  apply and_congr_right
  intro hl
  rw [iterate_below (Nat.le_of_lt hl), eq_comm]

lemma pairwise_walkDown : doc.walkDown.Pairwise (· < ·) := by
  apply List.pairwise_iff_getElem.mpr
  intro i j hi hj hij
  simp only [walkDown, List.length_iterate] at hi hj
  simp only [walkDown, List.getElem_iterate, iterate_below (Nat.le_of_lt hi), iterate_below (Nat.le_of_lt hj)]
  exact startOfLine_lt hij hj

section

variable {line : Nat} (inside : line < doc.lineCount)
include inside

lemma walkUp_startOfLine : doc.walkUp (doc.startOfLine line) =
    List.iterate doc.above (doc.startOfLine line) (line + 1) := by
  rw [walkUp, lineAt_startOfLine inside]

lemma mem_walkUp {o : Nat} : o ∈ doc.walkUp (doc.startOfLine line) ↔
    doc.BeginsLine o ∧ o ≤ doc.startOfLine line := by
  rw [walkUp_startOfLine inside, List.mem_iterate, beginsLine_iff]
  constructor
  · rintro ⟨n, hn, rfl⟩
    rw [iterate_above inside (Nat.le_of_lt_succ hn)]
    exact ⟨⟨line - n, by omega, rfl⟩, startOfLine_mono (Nat.sub_le line n) inside⟩
  · rintro ⟨⟨other, ho, rfl⟩, before⟩
    have order : other ≤ line := Nat.le_of_not_lt fun after => Nat.not_lt.mpr before (startOfLine_lt after ho)
    refine ⟨line - other, by omega, ?_⟩
    rw [iterate_above inside (Nat.sub_le line other), Nat.sub_sub_self order]

lemma pairwise_walkUp : (doc.walkUp (doc.startOfLine line)).Pairwise (· > ·) := by
  rw [walkUp_startOfLine inside]
  apply List.pairwise_iff_getElem.mpr
  intro i j hi hj hij
  rw [List.length_iterate] at hi hj
  rw [List.getElem_iterate, List.getElem_iterate, iterate_above inside (Nat.le_of_lt_succ hi),
    iterate_above inside (Nat.le_of_lt_succ hj)]
  exact startOfLine_lt (by omega) (by omega)

lemma getLast?_walkUp : (doc.walkUp (doc.startOfLine line)).getLast? = some 0 := by
  have last : line < line + 1 := Nat.lt_succ_self line
  rw [walkUp_startOfLine inside, List.getLast?_eq_getElem?, List.length_iterate, Nat.add_sub_cancel,
    List.getElem?_iterate _ _ _ _ last, iterate_above inside (Nat.le_refl _), Nat.sub_self, startOfLine_zero]

end

/-- From a line that another one follows, a step down and a step up lead back. Stepping down from the start of
the text passes each line once, in order, and then stays at its end; stepping up from a line passes each one
up to the first. -/
theorem line_walks_undo (doc : Document) :
    (∀ start later, doc.BeginsLine start → doc.BeginsLine later → start < later →
      doc.BeginsLine (doc.below start) ∧ start < doc.below start ∧ doc.above (doc.below start) = start) ∧
    (doc.walkDown.Pairwise (· < ·) ∧ (∀ o, o ∈ doc.walkDown ↔ doc.BeginsLine o) ∧
      ∀ n, doc.lineCount ≤ n → doc.below^[n] 0 = doc.length) ∧
    ∀ start, doc.BeginsLine start →
      (doc.walkUp start).Pairwise (· > ·) ∧
        (∀ o, o ∈ doc.walkUp start ↔ doc.BeginsLine o ∧ o ≤ start) ∧
        (doc.walkUp start).getLast? = some 0 := by
  refine ⟨?_, ⟨pairwise_walkDown, fun o => mem_walkDown, fun n hn => iterate_below_length hn⟩, ?_⟩
  · intro start later begins follows order
    obtain ⟨line, hl, rfl⟩ := beginsLine_iff.mp begins
    obtain ⟨other, ho, rfl⟩ := beginsLine_iff.mp follows
    have lines : line < other := Nat.lt_of_not_le fun h => Nat.not_lt.mpr (startOfLine_mono h hl) order
    have inside : line + 1 < doc.lineCount := by omega
    rw [below, nextLineStart_startOfLine hl]
    exact ⟨beginsLine_iff.mpr ⟨line + 1, inside, rfl⟩, startOfLine_lt_succ inside, lineStart_above inside⟩
  · intro start begins
    obtain ⟨line, hl, rfl⟩ := beginsLine_iff.mp begins
    exact ⟨pairwise_walkUp hl, fun o => mem_walkUp hl, getLast?_walkUp hl⟩

theorem line_walks_undo_in_mixed_breaks :
    let doc := Document.ofText (.ofString "a\r\n\n\rb\nc") "plaintext"
    doc.BeginsLine 3 ∧ doc.BeginsLine 7 ∧ 3 < 7 ∧ doc.above (doc.below 3) = 3 ∧
      doc.walkUp 7 = [7, 4, 3, 0] ∧ (doc.walkUp 7).getLast? = some 0 := by
  intro doc
  have begins : doc.BeginsLine 3 := show doc.text.units[2]? = some lineFeed by decide
  have later : doc.BeginsLine 7 := show doc.text.units[6]? = some lineFeed by decide
  obtain ⟨steps, -, up⟩ := line_walks_undo doc
  exact ⟨begins, later, by decide, (steps 3 7 begins later (by decide)).2.2, by decide +kernel,
    (up 7 later).2.2⟩

end Document

end Counterpart
