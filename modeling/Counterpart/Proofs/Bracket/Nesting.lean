import Counterpart.Proofs.Bracket.Pairing

namespace Counterpart

namespace Bracket

variable {read : Nat → Option Bracket} {start stop place : Nat} {b : Bracket}

lemma mem_span : b ∈ span read start stop ↔
    ∃ place, start ≤ place ∧ place < stop ∧ read place = some b := by
  rw [span, List.mem_filterMap]
  simp only [List.mem_range'_1]
  constructor
  · rintro ⟨place, ⟨hl, hr⟩, hb⟩
    exact ⟨place, hl, by omega, hb⟩
  · rintro ⟨place, hl, hr, hb⟩
    exact ⟨place, ⟨hl, by omega⟩, hb⟩

lemma le_of_span_eq_nil {middle : Nat} (h : span read start middle = []) (hl : start ≤ place)
    (hb : read place = some b) : middle ≤ place := by
  apply Nat.le_of_not_lt
  intro hlt
  have hm : b ∈ span read start middle := mem_span.mpr ⟨place, hl, hlt, hb⟩
  rw [h] at hm
  contradiction

lemma span_eq_append_cons {before behind : List Bracket} (h : span read start stop = before ++ b :: behind) :
    ∃ place, start ≤ place ∧ place < stop ∧ read place = some b ∧
      span read start place = before ∧ span read (place + 1) stop = behind := by
  induction hn : stop - start generalizing start before with
  | zero =>
    have hm : b ∈ span read start stop := by simp [h]
    obtain ⟨place, hl, hr, _⟩ := mem_span.mp hm
    omega
  | succ n ih =>
    have hlt : start < stop := by omega
    cases hr : read start with
    | none =>
      rw [span_skip read hlt hr] at h
      obtain ⟨place, hl, hp, hb, hbefore, hbehind⟩ := ih h (by omega)
      exact ⟨place, by omega, hp, hb, (span_skip read hl hr).trans hbefore, hbehind⟩
    | some c =>
      rw [span_cons read hlt hr] at h
      cases before with
      | nil =>
        obtain ⟨rfl, rfl⟩ := List.cons.inj h
        exact ⟨start, Nat.le_refl _, hlt, hr, span_self _ _, rfl⟩
      | cons d before =>
        obtain ⟨rfl, hs⟩ := List.cons.inj h
        obtain ⟨place, hl, hp, hb, hbefore, hbehind⟩ := ih hs (by omega)
        exact ⟨place, by omega, hp, hb, (span_cons read hl hr).trans (by rw [hbefore]), hbehind⟩

def PairedWithin (read : Nat → Option Bracket) (start stop place : Nat) : Prop :=
  ∃ other, start ≤ other ∧ other < stop ∧ (Paired read place other ∨ Paired read other place)

lemma PairedWithin.mono {start' stop' : Nat} (h : PairedWithin read start stop place) (hl : start' ≤ start)
    (hr : stop ≤ stop') : PairedWithin read start' stop' place := by
  obtain ⟨other, ho, hs, hp⟩ := h
  exact ⟨other, by omega, by omega, hp⟩

lemma WellBracketed.pairedWithin (h : WellBracketed (span read start stop)) (hl : start ≤ place)
    (hr : place < stop) (hb : read place = some b) : PairedWithin read start stop place := by
  generalize hw : span read start stop = word at h
  induction h generalizing start stop place with
  | nil =>
    have hs := le_of_span_eq_nil hw hl hb
    omega
  | pair s hi _ ihi ihr =>
    rw [List.cons_append, ← List.nil_append (_ :: _)] at hw
    obtain ⟨o, ho, hos, hro, hbefore, hbehind⟩ := span_eq_append_cons hw
    obtain ⟨p, hp, hps, hrp, hinner, hrest⟩ := span_eq_append_cons hbehind
    have hop : Paired read o p := ⟨hp, s, hro, hrp, hinner ▸ hi⟩
    have hle := le_of_span_eq_nil hbefore hl hb
    -- The place is one of the two brackets, or stands between them or behind them.
    rcases Nat.eq_or_lt_of_le hle with rfl | hlt
    · exact ⟨p, by omega, hps, .inl hop⟩
    · rcases Nat.lt_trichotomy place p with hin | rfl | hout
      · exact (ihi hlt hin hb hinner).mono (by omega) (by omega)
      · exact ⟨o, ho, hos, .inr hop⟩
      · exact (ihr hout hr hb hrest).mono (by omega) (Nat.le_refl _)

lemma Paired.pairedWithin {o p : Nat} (h : Paired read o p) (ho : o < place) (hp : place < p)
    (hb : read place = some b) : PairedWithin read (o + 1) p place := by
  obtain ⟨_, _, _, _, hw⟩ := h
  exact hw.pairedWithin ho hp hb

lemma Paired.closing_unique {o p q : Nat} (hp : Paired read o p) (hq : Paired read o q) : p = q := by
  have found : ∀ {place}, Paired read o place → place ≤ o + max p q →
      (Delimiter.balanced true (fun e => read (o + e)) [] (max p q + 1) 0).map (o + ·) = some place := by
    intro place h hle
    obtain ⟨_, s, ho, _⟩ := id h
    exact (balanced_map_opening read ho).mpr ⟨hle, h⟩
  exact Option.some.inj ((found hp (by omega)).symm.trans (found hq (by omega)))

lemma Paired.behind_or_within {o p o' p' : Nat} (h : Paired read o p) (h' : Paired read o' p') (later : o < o') :
    p < o' ∨ p' < p := by
  obtain ⟨_, s, _, hp, _⟩ := id h
  obtain ⟨_, t, ho', hp', _⟩ := id h'
  rcases Nat.lt_trichotomy o' p with hin | rfl | hout
  · obtain ⟨other, _, hlt, hpair | hpair⟩ := h.pairedWithin later hin ho'
    · exact .inr (h'.closing_unique hpair ▸ hlt)
    · obtain ⟨_, _, _, hclosing, _⟩ := hpair
      simp [ho'] at hclosing
  · simp [ho'] at hp
  · exact .inl hout

end Bracket

end Counterpart
