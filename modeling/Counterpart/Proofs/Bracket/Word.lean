import Counterpart.Bracket
import Mathlib.Tactic.Lemma

namespace Counterpart

namespace Bracket

inductive WellBracketed : List Bracket → Prop
  | nil : WellBracketed []
  | pair {word rest : List Bracket} (s : Shape) : WellBracketed word → WellBracketed rest →
      WellBracketed (⟨s, true⟩ :: word ++ ⟨s, false⟩ :: rest)

namespace WellBracketed

lemma append {v w : List Bracket} (hv : WellBracketed v) (hw : WellBracketed w) :
    WellBracketed (v ++ w) := by
  induction hv with
  | nil => exact hw
  | pair s hi hr ihi ihr => simpa using pair s hi ihr

lemma enclose {word : List Bracket} (s : Shape) (h : WellBracketed word) :
    WellBracketed (⟨s, true⟩ :: word ++ [⟨s, false⟩]) :=
  pair s h nil

lemma not_closing_cons (s : Shape) (word : List Bracket) : ¬ WellBracketed (⟨s, false⟩ :: word) := by
  intro h
  generalize he : (⟨s, false⟩ :: word : List Bracket) = w at h
  cases h <;> simp at he

lemma opening_cons_iff (s : Shape) (word : List Bracket) :
    WellBracketed (⟨s, true⟩ :: word) ↔
      ∃ inner rest, WellBracketed inner ∧ word = inner ++ ⟨s, false⟩ :: rest ∧ WellBracketed rest := by
  constructor
  · intro h
    generalize he : (⟨s, true⟩ :: word : List Bracket) = w at h
    cases h with
    | nil => simp at he
    | pair t hi hr =>
      simp only [List.cons_append, List.cons.injEq, mk.injEq, and_true] at he
      obtain ⟨rfl, rfl⟩ := he
      exact ⟨_, _, hi, rfl, hr⟩
  · rintro ⟨inner, rest, hi, rfl, hr⟩
    exact pair s hi hr

end WellBracketed

def mirror (word : List Bracket) : List Bracket := (word.map flip).reverse

lemma mirror_mirror (word : List Bracket) : mirror (mirror word) = word := by
  simp [mirror, Function.comp_def]

lemma WellBracketed.mirror {word : List Bracket} (h : WellBracketed word) :
    WellBracketed (mirror word) := by
  induction h with
  | nil => exact .nil
  | pair s hi hr ihi ihr => simpa [Bracket.mirror, flip] using ihr.append (ihi.enclose s)

lemma wellBracketed_mirror_iff (word : List Bracket) :
    WellBracketed (mirror word) ↔ WellBracketed word := by
  refine ⟨fun h => ?_, fun h => h.mirror⟩
  simpa only [mirror_mirror] using h.mirror

def Closes : List Shape → List Bracket → Prop
  | [], word => WellBracketed word
  | s :: stack, word => ∃ inner rest, WellBracketed inner ∧ word = inner ++ ⟨s, false⟩ :: rest ∧
      Closes stack rest

lemma not_closes_nil (s : Shape) (stack : List Shape) : ¬ Closes (s :: stack) [] := by
  rintro ⟨inner, rest, _, h, _⟩
  simp at h

lemma closes_opening (stack : List Shape) (s : Shape) (word : List Bracket) :
    Closes stack (⟨s, true⟩ :: word) ↔ Closes (s :: stack) word := by
  cases stack with
  | nil => exact WellBracketed.opening_cons_iff s word
  | cons t stack =>
    constructor
    · rintro ⟨v, rest, hv, he, hr⟩
      cases v with
      | nil => simp at he
      | cons b v =>
        obtain ⟨rfl, rfl⟩ := List.cons.inj he
        obtain ⟨inner, after, hi, rfl, ha⟩ := (WellBracketed.opening_cons_iff s v).mp hv
        exact ⟨inner, after ++ ⟨t, false⟩ :: rest, hi, by simp, after, rest, ha, rfl, hr⟩
    · rintro ⟨inner, _, hi, rfl, after, rest, ha, rfl, hr⟩
      exact ⟨⟨s, true⟩ :: inner ++ ⟨s, false⟩ :: after, rest, .pair s hi ha, by simp, hr⟩

lemma closes_closing (s t : Shape) (stack : List Shape) (word : List Bracket) :
    Closes (t :: stack) (⟨s, false⟩ :: word) ↔ t = s ∧ Closes stack word := by
  constructor
  · rintro ⟨v, rest, hv, he, hr⟩
    cases v with
    | nil =>
      simp only [List.nil_append, List.cons.injEq, mk.injEq, and_true] at he
      obtain ⟨rfl, rfl⟩ := he
      exact ⟨rfl, hr⟩
    | cons b v =>
      obtain ⟨rfl, _⟩ := List.cons.inj he
      exact (WellBracketed.not_closing_cons s v hv).elim
  · rintro ⟨rfl, h⟩
    exact ⟨[], word, .nil, rfl, h⟩

end Bracket

end Counterpart
