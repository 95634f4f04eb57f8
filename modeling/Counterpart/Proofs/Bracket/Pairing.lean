import Counterpart.Delimiter.Partner
import Counterpart.Proofs.Bracket.Word

/-! Pairs of brackets in a row of places, and the walk that finds them from either end. -/

namespace Counterpart

namespace Bracket

open Delimiter

def span (read : Nat → Option Bracket) (start stop : Nat) : List Bracket :=
  (List.range' start (stop - start)).filterMap read

@[simp] lemma span_self (read : Nat → Option Bracket) (start : Nat) : span read start start = [] := by
  simp [span]

lemma span_of_le (read : Nat → Option Bracket) {start stop : Nat} (h : stop ≤ start) :
    span read start stop = [] := by
  rw [span, Nat.sub_eq_zero_of_le h]
  rfl

lemma span_step (read : Nat → Option Bracket) {start stop : Nat} (h : start < stop) :
    span read start stop = (read start).toList ++ span read (start + 1) stop := by
  have hs : stop - start = stop - (start + 1) + 1 := by omega
  rw [span, hs, List.range'_succ, List.filterMap_cons, span]
  cases read start <;> rfl

lemma span_append (read : Nat → Option Bracket) {start middle stop : Nat} (hm : start ≤ middle)
    (hs : middle ≤ stop) : span read start stop = span read start middle ++ span read middle stop := by
  have hl : stop - start = (middle - start) + (stop - middle) := by omega
  have hp : start + (middle - start) = middle := by omega
  rw [span, hl, ← List.range'_append_1, hp, List.filterMap_append, span, span]

lemma span_shift (read : Nat → Option Bracket) (offset start stop : Nat) :
    span (fun e => read (offset + e)) start stop = span read (offset + start) (offset + stop) := by
  have hl : offset + stop - (offset + start) = stop - start := by omega
  rw [span, span, hl, ← List.map_add_range', List.filterMap_map]
  rfl

lemma span_reverse (read : Nat → Option Bracket) {p n : Nat} (h : n < p) :
    span (fun e => (read (p - e)).map flip) 1 (n + 1) = mirror (span read (p - n) p) := by
  induction n with
  | zero => simp [mirror]
  | succ n ih =>
    have hp : p - (n + 1) + 1 = p - n := by omega
    rw [span_append _ (Nat.le_add_left 1 n) (Nat.le_succ _), ih (by omega), span_step _ (Nat.lt_succ_self _),
      span_step read (by omega : p - (n + 1) < p), hp]
    cases read (p - (n + 1)) <;> simp [mirror]

lemma span_skip (read : Nat → Option Bracket) {start stop : Nat} (h : start < stop) (hr : read start = none) :
    span read start stop = span read (start + 1) stop := by
  rw [span_step read h, hr]
  rfl

lemma span_cons (read : Nat → Option Bracket) {start stop : Nat} {b : Bracket} (h : start < stop)
    (hr : read start = some b) : span read start stop = b :: span read (start + 1) stop := by
  rw [span_step read h, hr]
  rfl

def Found (read : Nat → Option Bracket) (bottom : Shape) (upper : List Shape) (distance d : Nat) : Prop :=
  distance ≤ d ∧ read d = some ⟨bottom, false⟩ ∧ Closes upper (span read distance d)

section

variable {read : Nat → Option Bracket} {bottom s t : Shape} {upper : List Shape} {distance d : Nat}

lemma found_iff_of_ne (hne : read distance = some ⟨bottom, false⟩ → ¬ Closes upper []) :
    Found read bottom upper distance d ↔
      distance + 1 ≤ d ∧ read d = some ⟨bottom, false⟩ ∧
        Closes upper ((read distance).toList ++ span read (distance + 1) d) := by
  constructor
  · rintro ⟨hl, hd, hc⟩
    have hlt : distance < d := by
      apply Nat.lt_of_le_of_ne hl
      rintro rfl
      rw [span_self] at hc
      exact hne hd hc
    rw [span_step read hlt] at hc
    exact ⟨hlt, hd, hc⟩
  · rintro ⟨hlt, hd, hc⟩
    rw [← span_step read hlt] at hc
    exact ⟨Nat.le_of_succ_le hlt, hd, hc⟩

lemma found_skip (hr : read distance = none) :
    Found read bottom upper distance d ↔ Found read bottom upper (distance + 1) d := by
  rw [found_iff_of_ne (by simp [hr]), hr]
  rfl

lemma found_opening (hr : read distance = some ⟨s, true⟩) :
    Found read bottom upper distance d ↔ Found read bottom (s :: upper) (distance + 1) d := by
  rw [found_iff_of_ne (by simp [hr]), hr, Found]
  exact and_congr_right' (and_congr_right' (closes_opening upper s _))

lemma found_closing (hr : read distance = some ⟨s, false⟩) :
    Found read bottom (t :: upper) distance d ↔ t = s ∧ Found read bottom upper (distance + 1) d := by
  have hc : Closes (t :: upper) ((some ⟨s, false⟩).toList ++ span read (distance + 1) d) ↔
      t = s ∧ Closes upper (span read (distance + 1) d) := closes_closing s t upper _
  rw [found_iff_of_ne (fun _ => not_closes_nil t upper), hr, hc, Found]
  refine ⟨fun ⟨hl, hd, hs, h⟩ => ⟨hs, hl, hd, h⟩, fun ⟨hs, hl, hd, h⟩ => ⟨hl, hd, hs, h⟩⟩

lemma found_bottom (hr : read distance = some ⟨s, false⟩) :
    Found read bottom [] distance d ↔ s = bottom ∧ distance = d := by
  constructor
  · rintro ⟨hl, hd, hc⟩
    rcases Nat.eq_or_lt_of_le hl with rfl | hlt
    · exact ⟨congrArg Bracket.shape (Option.some.inj (hr.symm.trans hd)), rfl⟩
    · rw [span_cons read hlt hr] at hc
      exact (WellBracketed.not_closing_cons _ _ hc).elim
  · rintro ⟨rfl, rfl⟩
    refine ⟨Nat.le_refl _, hr, ?_⟩
    rw [span_self]
    exact .nil

end

lemma balanced_bounds {forward : Bool} {read : Nat → Option Bracket} {stack : List Shape} {room distance d : Nat}
    (h : balanced forward read stack room distance = some d) : distance ≤ d ∧ d < distance + room := by
  induction room generalizing stack distance with
  | zero => simp [balanced] at h
  | succ room ih =>
    have further : ∀ {stack}, balanced forward read stack room (distance + 1) = some d →
        distance ≤ d ∧ d < distance + (room + 1) := by
      intro stack hs
      have hb := ih hs
      omega
    rw [balanced] at h
    split at h
    · exact further h
    · split at h
      · exact further h
      · split at h
        · contradiction
        · split at h
          · contradiction
          · split at h
            · obtain rfl := Option.some.inj h
              omega
            · exact further h

lemma balanced_iff (read : Nat → Option Bracket) (upper : List Shape) (bottom : Shape) (room distance d : Nat) :
    balanced true read (upper ++ [bottom]) room distance = some d ↔
      d < distance + room ∧ Found read bottom upper distance d := by
  induction room generalizing upper distance with
  | zero =>
    rw [balanced]
    refine iff_of_false (by simp) ?_
    rintro ⟨hlt, hle, _⟩
    omega
  | succ room ih =>
    have hroom : distance + (room + 1) = distance + 1 + room := by omega
    rw [balanced, hroom]
    cases hr : read distance with
    | none =>
      rw [found_skip hr]
      exact ih upper (distance + 1)
    | some b =>
      obtain ⟨s, _ | _⟩ := b
      · simp only [Bool.false_eq_true, if_false]
        cases upper with
        | nil =>
          rw [found_bottom hr]
          by_cases hs : s = bottom
          · subst hs
            simp
            omega
          · have hs' : bottom ≠ s := Ne.symm hs
            simp [hs, hs']
        | cons t upper =>
          have hne : (upper ++ [bottom]).isEmpty = false := by simp
          rw [found_closing hr]
          by_cases hs : t = s
          · simpa [hs, hne] using ih upper (distance + 1)
          · simp [hs]
      · rw [found_opening hr]
        exact ih (s :: upper) (distance + 1)

def Paired (read : Nat → Option Bracket) (o p : Nat) : Prop :=
  o < p ∧ ∃ s, read o = some ⟨s, true⟩ ∧ read p = some ⟨s, false⟩ ∧
    WellBracketed (span read (o + 1) p)

lemma paired_iff_span {read : Nat → Option Bracket} {o p : Nat} :
    Paired read o p ↔ ∃ s word, WellBracketed word ∧ read o = some ⟨s, true⟩ ∧
      read p = some ⟨s, false⟩ ∧ span read o (p + 1) = ⟨s, true⟩ :: word ++ [⟨s, false⟩] := by
  have both : ∀ {s : Shape}, read o = some ⟨s, true⟩ → read p = some ⟨s, false⟩ → o < p →
      span read o (p + 1) = ⟨s, true⟩ :: span read (o + 1) p ++ [⟨s, false⟩] := by
    intro s ho hp hlt
    have last : span read p (p + 1) = [⟨s, false⟩] := by
      rw [span_cons read (Nat.lt_succ_self p) hp, span_self]
    rw [span_append read (Nat.le_of_lt hlt) (Nat.le_succ p), last, span_cons read hlt ho]
  constructor
  · rintro ⟨hlt, s, ho, hp, hw⟩
    exact ⟨s, _, hw, ho, hp, both ho hp hlt⟩
  · rintro ⟨s, word, hw, ho, hp, he⟩
    have hlt : o < p := by
      rcases Nat.lt_trichotomy o p with hlt | rfl | hgt
      · exact hlt
      · simp [ho] at hp
      · rw [span_of_le read hgt] at he
        simp at he
    rw [both ho hp hlt, List.append_left_inj, List.cons_inj_right] at he
    exact ⟨hlt, s, ho, hp, he ▸ hw⟩

lemma balanced_flip (forward : Bool) (read : Nat → Option Bracket) (stack : List Shape) (room distance : Nat) :
    balanced forward read stack room distance =
      balanced (!forward) (fun e => (read e).map flip) stack room distance := by
  induction room generalizing stack distance with
  | zero => rfl
  | succ room ih =>
    rw [balanced, balanced]
    cases hr : read distance with
    | none => simpa using ih stack (distance + 1)
    | some b =>
      cases stack <;> simp [flip, ih]

lemma balanced_start (b : Bracket) (read : Nat → Option Bracket) (room : Nat) (h : read 0 = some b) :
    balanced b.opening read [] (room + 1) 0 = balanced b.opening read [b.shape] room 1 := by
  simp [balanced, h]

lemma balanced_opening (read : Nat → Option Bracket) {o d room : Nat} {s : Shape}
    (ho : read o = some ⟨s, true⟩) :
    balanced true (fun e => read (o + e)) [] (room + 1) 0 = some d ↔ d ≤ room ∧ Paired read o (o + d) := by
  have hw := balanced_iff (fun e => read (o + e)) [] s room 1 d
  rw [Found, span_shift] at hw
  simp only [balanced, Nat.add_zero, ho, if_true]
  rw [← List.nil_append [s], hw, Paired]
  constructor
  · rintro ⟨hb, hl, hd, hc⟩
    exact ⟨by omega, by omega, s, ho, hd, hc⟩
  · rintro ⟨hb, hl, t, ht, hd, hc⟩
    obtain rfl : s = t := by simpa [ho] using ht
    exact ⟨by omega, by omega, hd, hc⟩

lemma balanced_closing (read : Nat → Option Bracket) {p d room : Nat} {s : Shape}
    (hp : read p = some ⟨s, false⟩) (hb : room ≤ p) :
    balanced false (fun e => read (p - e)) [] (room + 1) 0 = some d ↔ d ≤ room ∧ Paired read (p - d) p := by
  have hw := balanced_iff (fun e => (read (p - e)).map flip) [] s room 1 d
  have hs : 1 ≤ d → d ≤ p → span (fun e => (read (p - e)).map flip) 1 d =
      mirror (span read (p - d + 1) p) := by
    intro hl hd
    have hr := span_reverse read (p := p) (n := d - 1) (by omega)
    rwa [show d - 1 + 1 = d by omega, show p - (d - 1) = p - d + 1 by omega] at hr
  have hf : (read (p - d)).map flip = some ⟨s, false⟩ ↔ read (p - d) = some ⟨s, true⟩ := by
    rw [Option.map_eq_some_iff]
    constructor
    · rintro ⟨b, hb, he⟩
      rw [hb, ← flip_flip b, he]
      rfl
    · intro h
      exact ⟨_, h, rfl⟩
  rw [balanced_flip, Bool.not_false]
  simp only [balanced, Nat.sub_zero, hp, Option.map_some, flip, Bool.not_false, if_true]
  rw [← List.nil_append [s], hw, Found, Paired, hf]
  constructor
  · rintro ⟨hd, hl, ho, hc⟩
    rw [hs hl (by omega)] at hc
    exact ⟨by omega, by omega, s, ho, hp, (wellBracketed_mirror_iff _).mp hc⟩
  · rintro ⟨hd, hl, t, ho, ht, hc⟩
    obtain rfl : s = t := by simpa [hp] using ht
    have h1 : 1 ≤ d := by omega
    refine ⟨by omega, h1, ho, ?_⟩
    rw [hs h1 (by omega)]
    exact hc.mirror

lemma balanced_map_opening (read : Nat → Option Bracket) {o p room : Nat} {s : Shape}
    (ho : read o = some ⟨s, true⟩) :
    (balanced true (fun e => read (o + e)) [] (room + 1) 0).map (o + ·) = some p ↔
      p ≤ o + room ∧ Paired read o p := by
  rw [Option.map_eq_some_iff]
  constructor
  · rintro ⟨d, hd, rfl⟩
    obtain ⟨hroom, hpair⟩ := (balanced_opening read ho).mp hd
    exact ⟨Nat.add_le_add_left hroom o, hpair⟩
  · rintro ⟨hroom, hpair⟩
    have hlt := hpair.1
    have he : o + (p - o) = p := by omega
    refine ⟨p - o, (balanced_opening read ho).mpr ⟨by omega, ?_⟩, he⟩
    rwa [he]

lemma balanced_map_closing (read : Nat → Option Bracket) {o p : Nat} {s : Shape}
    (hp : read p = some ⟨s, false⟩) :
    (balanced false (fun e => read (p - e)) [] (p + 1) 0).map (p - ·) = some o ↔ Paired read o p := by
  rw [Option.map_eq_some_iff]
  constructor
  · rintro ⟨d, hd, rfl⟩
    exact ((balanced_closing read hp (Nat.le_refl p)).mp hd).2
  · intro hpair
    have hlt := hpair.1
    have he : p - (p - o) = o := by omega
    refine ⟨p - o, (balanced_closing read hp (Nat.le_refl p)).mpr ⟨Nat.sub_le p o, ?_⟩, he⟩
    rwa [he]

end Bracket

end Counterpart
