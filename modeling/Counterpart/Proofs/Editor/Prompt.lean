import Counterpart.Proofs.Editor.Step
import Counterpart.Proofs.Motion.Percentage
import Mathlib.Data.List.TakeWhile

namespace Counterpart

namespace Prompt

lemma takeWhile_digits {digits : Units} (h : digits.all isDigit = true) : digits.takeWhile isDigit = digits :=
  List.takeWhile_eq_self_iff.mpr fun _ hu => List.all_eq_true.mp h _ hu

lemma ofDecimal_natCast (n : Nat) : Number.ofDecimal n 0 = .nearest n := by
  have whole : mkRat n (Nat.pow 10 0) = n := Rat.mkRat_one n
  rw [Number.ofDecimal, whole]

lemma percentage_of_accepts {input : Units} (h : accepts input = true) :
    percentage input = .nearest (valueOfDigits input.trim) := by
  rw [accepts, Bool.and_eq_true] at h
  obtain ⟨some_digit, digits⟩ := h
  rw [percentage]
  cases ht : input.trim with
  | nil => simp [ht] at some_digit
  | cons u rest =>
    rw [ht] at digits
    have sorted : isDigit u = true := (List.all_eq_true.mp digits) u List.mem_cons_self
    have minus : u ≠ unit '-' := by
      rintro rfl
      contradiction
    have plus : u ≠ unit '+' := by
      rintro rfl
      contradiction
    simp only [if_neg minus, if_neg plus, leadingNumber, takeWhile_digits digits]
    exact ofDecimal_natCast _

end Prompt

namespace Motion

variable (doc : Document) {m n : Nat}

lemma percentagePlace_mono_nearest (h : m ≤ n) (held : n < Number.overflow) :
    percentagePlace doc (.nearest m) ≤ percentagePlace doc (.nearest n) := by
  obtain ⟨w, hw, -⟩ := Number.exists_nearest_of_lt held
  obtain ⟨v, hv, -, order⟩ := Number.exists_nearest_le (Nat.cast_nonneg m) (Nat.cast_le.mpr h) hw
  rw [hv, hw]
  exact percentagePlace_mono doc (Number.whole_mono order)

lemma percentagePlace_of_overflow (h : Number.overflow ≤ n) :
    percentagePlace doc (.nearest n) = doc.contentOfLine 0 := by
  have first : doc.lineAt (doc.startOfLine 0) = 0 :=
    Document.lineAt_startOfLine (by rw [Document.lineCount_eq]; omega)
  rw [Document.startOfLine_zero] at first
  rw [Number.nearest_of_overflow h, percentagePlace, percentageOffset_of_whole_eq_zero rfl,
    Document.firstNonBlank, first]

lemma firstNonBlank_length : doc.firstNonBlank doc.length = doc.contentOfLine (doc.lineCount - 1) := by
  rw [Document.firstNonBlank, ← doc.lineAt_length, Nat.add_sub_cancel]

lemma percentagePlace_le_last (percent : Number) :
    percentagePlace doc percent ≤ doc.contentOfLine (doc.lineCount - 1) := by
  rw [← firstNonBlank_length]
  exact Document.firstNonBlank_mono (Int.ofNat_le.mpr (percentageOffset_le _ _))

lemma percentagePlace_hundred (fine : doc.length ≤ coarseThreshold) :
    percentagePlace doc (.nearest (100 : Nat)) = doc.contentOfLine (doc.lineCount - 1) := by
  have exact : doc.length ≤ exactThreshold := Nat.le_trans fine (by decide)
  have hundred : (Number.nearest (100 : Nat)).whole = (100 : Nat) := by decide +kernel
  have all : percentageOffset doc.length (.nearest (100 : Nat)) = doc.length := by
    rw [percentageOffset_natural hundred exact, naturalShare, if_neg (Nat.not_lt.mpr fine),
      Nat.mul_div_cancel_left _ (by decide), Nat.min_self]
  rw [percentagePlace, all, firstNonBlank_length]

lemma percentagePlace_of_hundred (hundred : 100 ≤ n) (held : n < Number.overflow)
    (fine : doc.length ≤ coarseThreshold) :
    percentagePlace doc (.nearest n) = doc.contentOfLine (doc.lineCount - 1) := by
  apply Nat.le_antisymm (percentagePlace_le_last doc _)
  rw [← percentagePlace_hundred doc fine]
  exact percentagePlace_mono_nearest doc hundred held

end Motion

namespace Editor

variable {editor : Editor}

lemma selection_revealJump (empty : editor.selection.isEmpty = true) {place : Nat}
    (h : place ≤ editor.text.length) :
    (editor.revealJump place).1.selection = ⟨place, place⟩ := by
  have inside : editor.text.clamp place = place := by
    rw [Text.clamp, Int.toNat_natCast, Nat.min_eq_left h]
  rw [revealJump, Selection.afterJump, empty]
  simp [reveal, inside]

lemma selection_typed (empty : editor.selection.isEmpty = true) {arguments : List Value}
    (absent : Command.count? arguments = none) {input : Units} (accepted : Prompt.accepts input = true) :
    let place := Motion.percentagePlace (Document.ofText editor.text editor.language)
      (.nearest (Prompt.valueOfDigits input.trim))
    (editor.perform .jumpToPercentage arguments (.typed input)).1.selection = ⟨place, place⟩ := by
  obtain ⟨journal, hj⟩ := editor.jumpToPercentage_eq (Prompt.percentage input)
  rw [Prompt.percentage_of_accepts accepted] at hj
  rw [perform, absent, promptForPercentage, Prompt.percentage_of_accepts accepted, hj]
  exact selection_revealJump empty (Motion.percentagePlace_le _ _)

/-- Percentages that are typed keep their order as places, and from a hundred on lead to the last line, as
long as binary64 holds them. One that is too large for that leads to the first line. -/
theorem typed_percentages_in_order (editor : Editor) (empty : editor.selection.isEmpty = true)
    (arguments : List Value) (absent : Command.count? arguments = none) {x y : Units}
    (hx : Prompt.accepts x = true)
    (hy : Prompt.accepts y = true) (order : Prompt.valueOfDigits x.trim ≤ Prompt.valueOfDigits y.trim) :
    let doc := Document.ofText editor.text editor.language
    ∃ p q : Nat, (p ≤ doc.length ∧ q ≤ doc.length) ∧
      (editor.perform .jumpToPercentage arguments (.typed x)).1.selection = ⟨p, p⟩ ∧
      (editor.perform .jumpToPercentage arguments (.typed y)).1.selection = ⟨q, q⟩ ∧
      (Prompt.valueOfDigits y.trim < Number.overflow → p ≤ q) ∧
      (100 ≤ Prompt.valueOfDigits y.trim → Prompt.valueOfDigits y.trim < Number.overflow →
        doc.length ≤ coarseThreshold → q = doc.contentOfLine (doc.lineCount - 1)) ∧
      (Number.overflow ≤ Prompt.valueOfDigits y.trim → q = doc.contentOfLine 0) := by
  intro doc
  exact ⟨_, _, ⟨Motion.percentagePlace_le _ _, Motion.percentagePlace_le _ _⟩,
    selection_typed empty absent hx,
    selection_typed empty absent hy, Motion.percentagePlace_mono_nearest doc order,
    Motion.percentagePlace_of_hundred doc, Motion.percentagePlace_of_overflow doc⟩

theorem typed_percentages_in_order_in_two_lines :
    let editor := (activate (.ofString "a\nb") "plaintext" ⟨0, 0⟩ []).1
    let x : Units := units "099"
    let y : Units := units " 1000000000000000000000000 "
    (editor.selection.isEmpty = true ∧ Command.count? [] = none ∧ Prompt.accepts x = true ∧
      Prompt.accepts y = true ∧
      Prompt.valueOfDigits x.trim ≤ Prompt.valueOfDigits y.trim) ∧
    ∃ p q : Nat, (editor.perform .jumpToPercentage [] (.typed x)).1.selection = ⟨p, p⟩ ∧
      (editor.perform .jumpToPercentage [] (.typed y)).1.selection = ⟨q, q⟩ ∧ p ≤ q ∧ q = 2 := by
  intro editor x y
  have hx : Prompt.accepts x = true := by decide +kernel
  have hy : Prompt.accepts y = true := by decide +kernel
  have order : Prompt.valueOfDigits x.trim ≤ Prompt.valueOfDigits y.trim := by decide +kernel
  have held : Prompt.valueOfDigits y.trim < Number.overflow := by decide +kernel
  have last : (Document.ofText editor.text editor.language).contentOfLine
      ((Document.ofText editor.text editor.language).lineCount - 1) = 2 := by decide +kernel
  obtain ⟨p, q, -, hp, hq, ordered, clamped, -⟩ :=
    typed_percentages_in_order editor rfl [] rfl hx hy order
  exact ⟨⟨rfl, rfl, hx, hy, order⟩, p, q, hp, hq, ordered held,
    (clamped (by decide +kernel) held (by decide +kernel)).trans last⟩

theorem hundred_typed_leads_beyond_more :
    let editor := (activate (.ofString "a\nb") "plaintext" ⟨0, 0⟩ []).1
    let x : Units := units "100"
    let y : Units := unit '1' :: List.replicate 309 (unit '0')
    (editor.selection.isEmpty = true ∧ Prompt.accepts x = true ∧ Prompt.accepts y = true ∧
      Prompt.valueOfDigits x.trim ≤ Prompt.valueOfDigits y.trim) ∧
    (editor.perform .jumpToPercentage [] (.typed x)).1.selection = ⟨2, 2⟩ ∧
      (editor.perform .jumpToPercentage [] (.typed y)).1.selection = ⟨0, 0⟩ := by
  decide +kernel

end Editor

end Counterpart
