import Counterpart.Proofs.Document.Lines
import Counterpart.Proofs.LineBreak.Find
import Counterpart.Proofs.Token.Boundary

namespace Counterpart

structure Lexicon.Unbroken (lex : Lexicon) : Prop where
  lineComments : ∀ marker ∈ lex.lineComments, marker.Unbroken
  blockComments : ∀ pair ∈ lex.blockComments, Units.Unbroken pair.1 ∧ Units.Unbroken pair.2
  quotes : ∀ quote ∈ lex.quotes ++ lex.charQuote.toList, quote.Unbroken
  escape : lex.escape.Unbroken

namespace Lexicon

lemma unbroken_iff (lex : Lexicon) : lex.Unbroken ↔
    (∀ marker ∈ lex.lineComments, marker.Unbroken) ∧
      (∀ pair ∈ lex.blockComments, Units.Unbroken pair.1 ∧ Units.Unbroken pair.2) ∧
        (∀ quote ∈ lex.quotes ++ lex.charQuote.toList, quote.Unbroken) ∧ lex.escape.Unbroken :=
  ⟨fun ⟨l, b, q, e⟩ => ⟨l, b, q, e⟩, fun ⟨l, b, q, e⟩ => ⟨l, b, q, e⟩⟩

instance (lex : Lexicon) : Decidable lex.Unbroken := decidable_of_iff' _ lex.unbroken_iff

lemma unbroken_ofLanguage (language : String) : (ofLanguage language).Unbroken :=
  ofLanguage_of_builtin (motive := Unbroken) (by decide) (by decide) language

namespace Unbroken

variable {lex : Lexicon} (h : lex.Unbroken)
include h

lemma isQuote_ne {u : UInt16} (hq : lex.isQuote u = true ∨ lex.isCharQuote u = true) :
    u ≠ lineFeed ∧ u ≠ carriageReturn := by
  have hm : [u] ∈ lex.quotes ++ lex.charQuote.toList := by
    rcases hq with hq | hc
    · exact List.mem_append_left _ (List.contains_iff_mem.mp hq)
    · rw [eq_of_beq hc]
      exact List.mem_append_right _ (List.mem_singleton_self _)
  exact (h.quotes [u] hm).head_ne

lemma isEscape_ne {u : UInt16} (he : lex.isEscape u = true) : u ≠ lineFeed ∧ u ≠ carriageReturn := by
  have hu : lex.escape = [u] := eq_of_beq he
  exact (hu ▸ h.escape).head_ne

lemma not_isEscape {u : UInt16} (hu : u = lineFeed ∨ u = carriageReturn) : lex.isEscape u = false := by
  rw [Bool.eq_false_iff]
  intro he
  rcases hu with rfl | rfl
  · exact (h.isEscape_ne he).1 rfl
  · exact (h.isEscape_ne he).2 rfl

end Unbroken

end Lexicon

namespace Token

open Counterpart.Units

lemma begins_widen {word : Units} (unbroken : word.Unbroken) (us : Units) :
    (!word.isEmpty && word.isPrefixOf (widen us)) = (!word.isEmpty && word.isPrefixOf us) := by
  rw [isPrefixOf_widen unbroken]

lemma begins_break {word : Units} (unbroken : word.Unbroken) {u : UInt16}
    (hu : u = lineFeed ∨ u = carriageReturn)
    (us : Units) : (!word.isEmpty && word.isPrefixOf (u :: us)) = false := by
  cases word with
  | nil => rfl
  | cons w word => rw [isPrefixOf_cons_of_ne unbroken (by simp) hu, Bool.and_false]

section

variable {pairs : List (Units × Units)}
  (unbroken : ∀ pair ∈ pairs, Units.Unbroken pair.1 ∧ Units.Unbroken pair.2)
include unbroken

lemma blockCommentOf?_break {u : UInt16} (hu : u = lineFeed ∨ u = carriageReturn) (us : Units) :
    blockCommentOf? (u :: us) pairs = none := by
  induction pairs with
  | nil => rfl
  | cons pair pairs ih =>
    obtain ⟨hp, hr⟩ := List.forall_mem_cons.mp unbroken
    rw [blockCommentOf?, begins_break hp.1 hu, if_neg Bool.false_ne_true]
    exact ih hr

lemma blockCommentOf?_widen_none {us : Units} (hn : blockCommentOf? us pairs = none) :
    blockCommentOf? (widen us) pairs = none := by
  induction pairs with
  | nil => rfl
  | cons pair pairs ih =>
    obtain ⟨hp, hr⟩ := List.forall_mem_cons.mp unbroken
    rw [blockCommentOf?] at hn ⊢
    rw [begins_widen hp.1]
    split at hn
    · contradiction
    · next hb =>
      rw [if_neg hb]
      exact ih hr hn

lemma blockCommentOf?_widen_some {us : Units} {token : Token} (hs : blockCommentOf? us pairs = some token) :
    ∃ opener body closer after : Units, us = opener ++ body ++ closer ++ after ∧ opener.Unbroken ∧
      closer.Unbroken ∧ token = blockComment opener.length body.length closer.length ∧
      blockCommentOf? (widen us) pairs = some (blockComment opener.length (widen body).length closer.length) := by
  induction pairs with
  | nil => contradiction
  | cons pair pairs ih =>
    obtain ⟨opener, closer⟩ := pair
    obtain ⟨⟨ho, hc⟩, hr⟩ := List.forall_mem_cons.mp unbroken
    simp only [blockCommentOf?, begins_widen ho] at hs ⊢
    split at hs
    · next hb =>
      rw [if_pos hb]
      obtain ⟨rest, rfl⟩ := List.isPrefixOf_iff_prefix.mp (Bool.and_eq_true_iff.mp hb).2
      rw [widen_append, widen_eq_self ho.1, List.drop_left, find?_widen hc]
      rw [List.drop_left] at hs
      obtain rfl := Option.some.inj hs
      cases hf : find? closer rest with
      | none => exact ⟨opener, rest, [], [], by simp, ho, by decide, rfl, rfl⟩
      | some n =>
        obtain ⟨body, after, rfl, rfl⟩ := eq_append_of_find? hf
        refine ⟨opener, body, closer, after, by simp, ho, hc, rfl, ?_⟩
        rw [List.append_assoc, Option.map_some, place_append_length]
    · next hb =>
      rw [if_neg hb]
      exact ih hr hs

end

section

variable {markers : List Units} (unbroken : ∀ marker ∈ markers, marker.Unbroken)
include unbroken

lemma lineCommentOf?_break {u : UInt16} (hu : u = lineFeed ∨ u = carriageReturn) (us : Units) :
    lineCommentOf? (u :: us) markers = none := by
  induction markers with
  | nil => rfl
  | cons marker markers ih =>
    obtain ⟨hm, hr⟩ := List.forall_mem_cons.mp unbroken
    rw [lineCommentOf?, begins_break hm hu, if_neg Bool.false_ne_true]
    exact ih hr

lemma lineCommentOf?_widen_none {us : Units} (hn : lineCommentOf? us markers = none) :
    lineCommentOf? (widen us) markers = none := by
  induction markers with
  | nil => rfl
  | cons marker markers ih =>
    obtain ⟨hm, hr⟩ := List.forall_mem_cons.mp unbroken
    rw [lineCommentOf?] at hn ⊢
    rw [begins_widen hm]
    split at hn
    · contradiction
    · next hb =>
      rw [if_neg hb]
      exact ih hr hn

lemma lineCommentOf?_widen_some {us : Units} {token : Token} (hs : lineCommentOf? us markers = some token) :
    ∃ (line after : Units) (marker : Nat), us = line ++ after ∧ lineFeed ∉ line ∧
      marker ≤ line.length ∧ token = lineComment marker line.length ∧
      (after = [] ∧ lineCommentOf? (widen us) markers = some (lineComment marker line.length) ∨
        (∃ rest, after = lineFeed :: rest) ∧
          lineCommentOf? (widen us) markers = some (lineComment marker (line.length + 1))) := by
  induction markers with
  | nil => contradiction
  | cons marker markers ih =>
    obtain ⟨hm, hr⟩ := List.forall_mem_cons.mp unbroken
    rw [lineCommentOf?] at hs ⊢
    rw [begins_widen hm]
    split at hs
    · next hb =>
      rw [if_pos hb]
      rw [Bool.and_eq_true] at hb
      have hpos : 0 < marker.length := by
        rw [List.length_pos_iff]
        rintro rfl
        exact absurd hb.1 (by decide)
      have hle := length_le_takeWhile hb.2 hm.1
      obtain rfl := Option.some.inj hs
      obtain ⟨line, after, rfl, inline, ends⟩ := exists_line us
      have hline : (line ++ after).takeWhile (· != lineFeed) = line := by
        rw [takeWhile_line inline]
        rcases ends with rfl | ⟨rest, rfl⟩ <;> exact List.append_nil line
      rw [hline] at hle ⊢
      refine ⟨line, after, marker.length, rfl, inline, hle, by rw [Nat.max_eq_right (by omega)], ?_⟩
      rw [widen_append, widen_eq_self inline, takeWhile_line inline]
      rcases ends with rfl | ⟨rest, rfl⟩
      · refine .inl ⟨rfl, ?_⟩
        rw [widen_nil, List.takeWhile_nil, List.append_nil, Nat.max_eq_right (by omega)]
      · refine .inr ⟨⟨rest, rfl⟩, ?_⟩
        have hr : (widen (lineFeed :: rest)).takeWhile (· != lineFeed) = [carriageReturn] := rfl
        rw [hr, List.length_append, List.length_singleton, Nat.max_eq_right (by omega)]
    · next hb =>
      rw [if_neg hb]
      exact ih hr hs

end

section

variable {lex : Lexicon} (unbroken : lex.Unbroken)
include unbroken

lemma next_break {u : UInt16} (hu : u = lineFeed ∨ u = carriageReturn) (us : Units) : next lex u us = plain := by
  have unquoted : ¬ lex.isQuote u = true ∧ ¬ lex.isCharQuote u = true := by
    constructor <;> intro hq
    · have hne := unbroken.isQuote_ne (.inl hq)
      rcases hu with rfl | rfl <;> simp at hne
    · have hne := unbroken.isQuote_ne (.inr hq)
      rcases hu with rfl | rfl <;> simp at hne
  rw [next, blockCommentOf?_break unbroken.blockComments hu, lineCommentOf?_break unbroken.lineComments hu]
  rw [if_neg unquoted.1, if_neg unquoted.2]

section

variable {quote : UInt16} (hq : quote ≠ lineFeed ∧ quote ≠ carriageReturn)
include hq

lemma characterLength?_of_escape {v : UInt16} (escape : lex.isEscape v = true) (w : UInt16) (us : Units) :
    characterLength? lex quote (v :: w :: us) =
      (find? [quote] us).bind fun k => if w = lineFeed ∨ lineFeed ∈ us.take k then none else some (k + 4) := by
  have hv := unbroken.isEscape_ne escape
  cases hf : find? [quote] us with
  | none => rw [characterLength?_unclosed escape hf, Option.bind_none]
  | some k =>
    have broken : ((quote :: v :: w :: us).take (k + 3)).contains lineFeed = true ↔
        w = lineFeed ∨ lineFeed ∈ us.take k := by
      rw [List.contains_iff_mem, List.take_succ_cons, List.take_succ_cons, List.take_succ_cons, List.mem_cons,
        List.mem_cons, List.mem_cons, or_iff_right hq.1.symm, or_iff_right hv.1.symm, @eq_comm _ lineFeed w]
    rw [characterLength?_escaped escape hf, Option.bind_some]
    simp only [broken]

lemma lineFeed_not_mem_character {us : Units} {n : Nat} (h : characterLength? lex quote us = some n) :
    lineFeed ∉ (quote :: us).take n := by
  by_cases escape : us.head?.any lex.isEscape = true
  · rcases us with _ | ⟨v, _ | ⟨w, us⟩⟩
    · contradiction
    · rw [characterLength?, if_pos escape] at h
      contradiction
    · rw [characterLength?_of_escape unbroken hq escape] at h
      obtain ⟨k, hk, hn⟩ := Option.bind_eq_some_iff.mp h
      obtain ⟨body, rest, rfl, rfl⟩ := eq_append_of_find? hk
      split at hn
      · contradiction
      · next inline =>
        obtain rfl := Option.some.inj hn
        have hv := (unbroken.isEscape_ne escape).1
        have htake : (body ++ [quote] ++ rest).take (body.length + 1) = body ++ [quote] := by
          rw [← List.length_singleton (a := quote), ← List.length_append, List.take_left]
        rw [not_or, List.append_assoc, List.take_left] at inline
        rw [List.take_succ_cons, List.take_succ_cons, List.take_succ_cons, htake]
        simp [hq.1.symm, hv.symm, Ne.symm inline.1, inline.2]
  · rw [characterLength?, if_neg escape] at h
    split at h
    · next hc =>
      obtain rfl := Option.some.inj h
      rw [Bool.and_eq_true, beq_iff_eq, bne_iff_ne] at hc
      rcases us with _ | ⟨v, _ | ⟨w, us⟩⟩
      · simp at hc
      · simp at hc
      · obtain ⟨hw, hv⟩ := hc
        obtain rfl : w = quote := by simpa using hw
        have hv : v ≠ lineFeed := by simpa using hv
        simp [hq.1.symm, hv.symm]
    · contradiction

lemma characterLength?_widen_escaped {v : UInt16} (escape : lex.isEscape v = true) (w : UInt16) (us : Units) :
    characterLength? lex quote (widen (v :: w :: us)) = characterLength? lex quote (v :: w :: us) := by
  have closer : Unbroken [quote] := ⟨by simpa using hq.1.symm, by simpa using hq.2.symm⟩
  rw [widen_cons (unbroken.isEscape_ne escape).1, characterLength?_of_escape unbroken hq escape]
  by_cases hw : w = lineFeed
  · -- The line feed lies before any closing quote.
    rw [hw, widen_lineFeed, characterLength?_of_escape unbroken hq escape, find?_cons,
      isPrefixOf_cons_of_ne closer (by simp) (.inl rfl), if_neg Bool.false_ne_true]
    cases find? [quote] us <;> cases find? [quote] (widen us) <;> simp [Nat.add_comm 1]
  · rw [widen_cons hw, characterLength?_of_escape unbroken hq escape, find?_widen closer]
    cases hf : find? [quote] us with
    | none => rfl
    | some k =>
      have hk := find?_bound hf
      have htake : (widen us).take (place us k) = widen (us.take k) := take_place (by omega)
      simp only [Option.map_some, Option.bind_some, htake, lineFeed_mem_widen]
      split
      · rfl
      · next inline =>
        rw [not_or] at inline
        rw [place, List.count_eq_zero.mpr inline.2, Nat.add_zero]

lemma characterLength?_widen (us : Units) : characterLength? lex quote (widen us) =
    characterLength? lex quote us := by
  cases us with
  | nil => rfl
  | cons v us =>
    by_cases escape : lex.isEscape v = true
    · cases us with
      | nil => rw [widen_cons (unbroken.isEscape_ne escape).1, widen_nil]
      | cons w us => exact characterLength?_widen_escaped unbroken hq escape w us
    · by_cases hv : v = lineFeed
      · subst hv
        have hr := unbroken.not_isEscape (u := carriageReturn) (.inr rfl)
        simp [characterLength?, hr, escape, hq.1.symm]
      · rw [widen_cons hv]
        rcases us with _ | ⟨w, us⟩
        · rfl
        · by_cases hw : w = lineFeed
          · simp [characterLength?, escape, hw, hq.1.symm, hq.2.symm]
          · rw [widen_cons hw]
            simp [characterLength?, escape]

end

end

end Token

end Counterpart
