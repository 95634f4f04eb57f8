import Counterpart.Proofs.LineBreak.Literal
import Counterpart.Proofs.Token.Literal

namespace Counterpart

open Counterpart.Units

inductive Spread : Units → List Style → List Style → Prop
  | nil : Spread [] [] []
  | unit {u : UInt16} {us : Units} {narrow wide : List Style} (style : Style) : u ≠ lineFeed →
      Spread us narrow wide → Spread (u :: us) (style :: narrow) (style :: wide)
  | break {us : Units} {narrow wide : List Style} (style : Style) :
      Spread us narrow wide → Spread (lineFeed :: us) (style :: narrow) (style :: style :: wide)
  | behindComment {us : Units} {narrow wide : List Style} :
      Spread us narrow wide → Spread (lineFeed :: us) (.code :: narrow) (.comment :: .code :: wide)
  | behindString {u : UInt16} {us : Units} {narrow wide : List Style} :
      u ≠ lineFeed → isQuoteGlyph u = false → Spread us narrow wide →
        Spread (u :: lineFeed :: us) (.string :: .code :: narrow) (.string :: .string :: .code :: wide)

namespace Spread

lemma append {us vs : Units} {narrow wide narrow' wide' : List Style} (h : Spread us narrow wide)
    (h' : Spread vs narrow' wide') : Spread (us ++ vs) (narrow ++ narrow') (wide ++ wide') := by
  induction h with
  | nil => exact h'
  | unit style hu _ ih => exact .unit style hu ih
  | «break» style _ ih => exact .break style ih
  | behindComment _ ih => exact .behindComment ih
  | behindString hu glyph _ ih => exact .behindString hu glyph ih

lemma replicate (us : Units) (style : Style) :
    Spread us (List.replicate us.length style) (List.replicate (widen us).length style) := by
  induction us with
  | nil => exact .nil
  | cons u us ih =>
    by_cases hu : u = lineFeed
    · rw [hu]
      exact .break style ih
    · rw [widen_cons hu]
      exact .unit style hu ih

lemma inline {us : Units} (h : lineFeed ∉ us) {styles : List Style} (hl : styles.length = us.length) :
    Spread us styles styles := by
  induction us generalizing styles with
  | nil =>
    obtain rfl := List.length_eq_zero_iff.mp hl
    exact .nil
  | cons u us ih =>
    cases styles with
    | nil => contradiction
    | cons style styles =>
      rw [List.mem_cons, not_or] at h
      exact .unit style (Ne.symm h.1) (ih h.2 (Nat.succ.inj hl))

end Spread

namespace Token

variable {lex : Lexicon}

def uncommented (lex : Lexicon) (u : UInt16) (rest : Units) : Token :=
  if lex.isQuote u then string (stringLength lex u 1 rest)
  else if lex.isCharQuote u then
    match characterLength? lex u rest with
    | some length => character length
    | none => plain
  else plain

section

variable {u : UInt16} {us : Units}

lemma next_of_uncommented (notBlock : blockCommentOf? (u :: us) lex.blockComments = none)
    (notLine : lineCommentOf? (u :: us) lex.lineComments = none) : next lex u us = uncommented lex u us := by
  rw [next, notBlock, notLine]
  rfl

lemma uncommented_quote (quoted : lex.isQuote u = true) (us : Units) :
    uncommented lex u us = string (stringLength lex u 0 us + 1) := by
  rw [uncommented, if_pos quoted, ← stringLength_add]

lemma uncommented_charQuote (unquoted : ¬ lex.isQuote u = true) (charQuoted : lex.isCharQuote u = true) {n : Nat}
    (hn : characterLength? lex u us = some n) : uncommented lex u us = character n := by
  rw [uncommented, if_neg unquoted, if_pos charQuoted, hn]

lemma uncommented_plain (unquoted : ¬ lex.isQuote u = true)
    (unread : lex.isCharQuote u = true → characterLength? lex u us = none) : uncommented lex u us = plain := by
  rw [uncommented, if_neg unquoted]
  split
  · next hc => rw [unread hc]
  · rfl

end

variable (unbroken : lex.Unbroken)
include unbroken

lemma stylesOf_break {u : UInt16} (hu : u = lineFeed ∨ u = carriageReturn) (us : Units) :
    stylesOf lex (u :: us) = .code :: stylesOf lex us := by
  have hn := next_break unbroken hu us
  have hs : stylesOf lex (u :: us) = _ := stylesOf_of_next (@List.singleton_append _ u us).symm (by rw [hn]; rfl)
  rw [hs, hn]
  rfl

inductive Alike (lex : Lexicon) (u : UInt16) (us : Units) : Prop
  | whole (taken after : Units) : u :: us = taken ++ after → (next lex u us).length = taken.length →
      (next lex u (widen us)).length = (widen taken).length →
      Spread taken ((next lex u us).styles .code) ((next lex u (widen us)).styles .code) → Alike lex u us
  | cut (taken rest : Units) : u :: us = taken ++ lineFeed :: rest → (next lex u us).length = taken.length →
      (next lex u (widen us)).length = (widen taken).length + 1 →
      (∀ narrow wide, Spread rest narrow wide →
        Spread (taken ++ lineFeed :: rest) ((next lex u us).styles .code ++ .code :: narrow)
          ((next lex u (widen us)).styles .code ++ .code :: wide)) →
      Alike lex u us

lemma alike_blockComment {u : UInt16} {us : Units} (hu : u ≠ lineFeed) {token : Token}
    (hb : blockCommentOf? (u :: us) lex.blockComments = some token) : Alike lex u us := by
  obtain ⟨opener, body, closer, after, hs, ho, hc, rfl, hw⟩ :=
    blockCommentOf?_widen_some unbroken.blockComments hb
  have narrow : next lex u us = blockComment opener.length body.length closer.length := by rw [next, hb]
  have wide : next lex u (widen us) = blockComment opener.length (widen body).length closer.length := by
    rw [next, ← widen_cons hu, hw]
  refine .whole (opener ++ body ++ closer) after hs ?_ ?_ ?_
  · rw [narrow, length, List.length_append, List.length_append]
  · rw [wide, length, widen_append, widen_append, widen_eq_self ho.1, widen_eq_self hc.1, List.length_append,
      List.length_append]
  · rw [narrow, wide]
    exact ((Spread.inline ho.1 List.length_replicate).append (.replicate body .comment)).append
      (.inline hc.1 List.length_replicate)

section

variable {u : UInt16} {us : Units} (hu : u ≠ lineFeed)
  (notBlock : blockCommentOf? (u :: us) lex.blockComments = none)
include hu notBlock

lemma alike_lineComment {token : Token} (hc : lineCommentOf? (u :: us) lex.lineComments = some token) :
    Alike lex u us := by
  obtain ⟨line, after, marker, hs, inline, hm, rfl, hw⟩ := lineCommentOf?_widen_some unbroken.lineComments hc
  have notBlockWide := blockCommentOf?_widen_none unbroken.blockComments notBlock
  have narrow : next lex u us = lineComment marker line.length := by rw [next, notBlock, hc]
  have styled : (styles .code (lineComment marker line.length)).length = line.length := by rw [length_styles]; rfl
  rcases hw with ⟨rfl, hw⟩ | ⟨⟨rest, rfl⟩, hw⟩
  · have wide : next lex u (widen us) = lineComment marker line.length := by
      rw [next, ← widen_cons hu, notBlockWide, hw]
    refine .whole line [] hs (by rw [narrow]; rfl) (by rw [wide, widen_eq_self inline]; rfl) ?_
    rw [narrow, wide]
    exact .inline inline styled
  · have wide : next lex u (widen us) = lineComment marker (line.length + 1) := by
      rw [next, ← widen_cons hu, notBlockWide, hw]
    refine .cut line rest hs (by rw [narrow]; rfl) (by rw [wide, widen_eq_self inline]; rfl) fun ss ss' h => ?_
    have longer : styles .code (lineComment marker (line.length + 1)) =
        styles .code (lineComment marker line.length) ++ [.comment] := by
      rw [styles, styles, Nat.min_eq_left hm, Nat.min_eq_left (by omega), Nat.sub_add_comm hm,
        List.replicate_succ', List.append_assoc]
    rw [narrow, wide, longer, List.append_assoc]
    exact (Spread.inline inline styled).append (.behindComment h)

variable (notLine : lineCommentOf? (u :: us) lex.lineComments = none)
include notLine

lemma next_eq_uncommented : next lex u us = uncommented lex u us ∧
    next lex u (widen us) = uncommented lex u (widen us) := by
  have notBlockWide := blockCommentOf?_widen_none unbroken.blockComments notBlock
  have notLineWide := lineCommentOf?_widen_none unbroken.lineComments notLine
  rw [widen_cons hu] at notBlockWide notLineWide
  exact ⟨next_of_uncommented notBlock notLine, next_of_uncommented notBlockWide notLineWide⟩

lemma alike_string (quoted : lex.isQuote u = true) (alike : ReadsAlike lex (u :: us)) : Alike lex u us := by
  have hq := unbroken.isQuote_ne (.inl quoted)
  obtain ⟨narrow, wide⟩ := next_eq_uncommented unbroken hu notBlock notLine
  rw [uncommented_quote quoted] at narrow wide
  obtain ⟨body, after, rfl, hn, hw⟩ := stringLength_widen unbroken hq (.inl hu) (alike.literal narrow)
  have hlength : (next lex u (body ++ after)).length = (u :: body).length := by
    rw [narrow, hn]
    rfl
  have hwiden : (widen (u :: body)).length = (widen body).length + 1 := by
    rw [widen_cons hu]
    rfl
  rcases hw with hw | ⟨init, rest, v, hi, rfl, hv, glyph, hw⟩
  · refine .whole (u :: body) after rfl hlength (by rw [wide, hw, hwiden]; rfl) ?_
    rw [narrow, wide, hn, hw]
    have spread := Spread.replicate (u :: body) .string
    rwa [hwiden] at spread
  · refine .cut (u :: body) rest rfl hlength (by rw [wide, hw, hwiden]; rfl) fun ss ss' h => ?_
    have hbody : body.length + 1 = init.length + 1 := by
      rw [← List.length_cons (a := u), hi, List.length_append, List.length_singleton]
    have hwide : (widen body).length + 1 = (widen init).length + 1 := by
      rw [← hwiden, hi, widen_append, widen_cons hv, List.length_append]
      rfl
    rw [narrow, wide, hn, hw, hi, styles, styles, hbody, hwide, List.replicate_succ', List.replicate_succ',
      List.replicate_succ', List.append_assoc, List.append_assoc, List.append_assoc, List.append_assoc]
    exact (Spread.replicate init .string).append (.behindString hv glyph h)

lemma alike_character (unquoted : ¬ lex.isQuote u = true) (charQuoted : lex.isCharQuote u = true) {n : Nat}
    (hn : characterLength? lex u us = some n) : Alike lex u us := by
  have hq := unbroken.isQuote_ne (.inr charQuoted)
  have inline := lineFeed_not_mem_character unbroken hq hn
  have hlength : ((u :: us).take n).length = n := by
    have hle := characterLength?_le hn
    rw [List.length_take, List.length_cons, Nat.min_eq_left hle]
  have hnWide : characterLength? lex u (widen us) = some n := (characterLength?_widen unbroken hq us).trans hn
  obtain ⟨narrow, wide⟩ := next_eq_uncommented unbroken hu notBlock notLine
  rw [uncommented_charQuote unquoted charQuoted hn] at narrow
  rw [uncommented_charQuote unquoted charQuoted hnWide] at wide
  refine .whole ((u :: us).take n) ((u :: us).drop n) (List.take_append_drop n _).symm ?_ ?_ ?_
  · rw [narrow, hlength]
    rfl
  · rw [wide, widen_eq_self inline, hlength]
    rfl
  · rw [narrow, wide]
    exact .inline inline (by rw [length_styles, hlength]; rfl)

lemma alike_plain (unquoted : ¬ lex.isQuote u = true)
    (unread : lex.isCharQuote u = true → characterLength? lex u us = none) : Alike lex u us := by
  have unreadWide : lex.isCharQuote u = true → characterLength? lex u (widen us) = none := fun hc =>
    (characterLength?_widen unbroken (unbroken.isQuote_ne (.inr hc)) us).trans (unread hc)
  obtain ⟨narrow, wide⟩ := next_eq_uncommented unbroken hu notBlock notLine
  rw [uncommented_plain unquoted unread] at narrow
  rw [uncommented_plain unquoted unreadWide] at wide
  refine .whole [u] us rfl (by rw [narrow]; rfl) (by rw [wide, widen_cons hu]; rfl) ?_
  rw [narrow, wide]
  exact .unit .code hu .nil

end

lemma alike_next {u : UInt16} {us : Units} (hu : u ≠ lineFeed) (alike : ReadsAlike lex (u :: us)) :
    Alike lex u us := by
  cases hb : blockCommentOf? (u :: us) lex.blockComments with
  | some token => exact alike_blockComment unbroken hu hb
  | none =>
    cases hl : lineCommentOf? (u :: us) lex.lineComments with
    | some token => exact alike_lineComment unbroken hu hb hl
    | none =>
      by_cases hq : lex.isQuote u = true
      · exact alike_string unbroken hu hb hl hq alike
      · by_cases hc : lex.isCharQuote u = true
        · cases hn : characterLength? lex u us with
          | some n => exact alike_character unbroken hu hb hl hq hc hn
          | none => exact alike_plain unbroken hu hb hl hq fun _ => hn
        · exact alike_plain unbroken hu hb hl hq fun h => absurd h hc

lemma spread_stylesOf {us : Units} (alike : ReadsAlike lex us) :
    Spread us (stylesOf lex us) (stylesOf lex (widen us)) := by
  -- over the units that remain, as the head token may take any number of them
  induction us using (measure List.length).wf.induction with
  | h us ih =>
    cases us with
    | nil => exact .nil
    | cons u us =>
      have behind := alike.behind
      by_cases hu : u = lineFeed
      · subst hu
        rw [next_break unbroken (.inl rfl)] at behind
        rw [widen_lineFeed, stylesOf_break unbroken (.inl rfl), stylesOf_break unbroken (.inr rfl),
          stylesOf_break unbroken (.inl rfl)]
        exact .break .code (ih us (Nat.lt_succ_self _) behind)
      · rw [widen_cons hu]
        cases alike_next unbroken hu alike with
        | whole taken after hs hl hw spread =>
          have hpos := length_next_pos lex u us
          have hlength := congrArg List.length hs
          rw [List.length_append] at hlength
          rw [hl, hs, List.drop_left] at behind
          have hwide : u :: widen us = widen taken ++ widen after := by rw [← widen_cons hu, hs, widen_append]
          rw [stylesOf_of_next hs hl, stylesOf_of_next hwide hw, hs]
          refine spread.append (ih after ?_ behind)
          show after.length < (u :: us).length
          omega
        | cut taken rest hs hl hw spread =>
          have hlength := congrArg List.length hs
          simp only [List.length_append, List.length_cons] at hlength
          rw [hl, hs, List.drop_left] at behind
          have further := behind.behind
          rw [next_break unbroken (.inl rfl)] at further
          have hwide : u :: widen us = (widen taken ++ [carriageReturn]) ++ lineFeed :: widen rest := by
            rw [← widen_cons hu, hs, widen_append, List.append_assoc]
            rfl
          have hw : (next lex u (widen us)).length = (widen taken ++ [carriageReturn]).length := by
            rw [hw, List.length_append]
            rfl
          rw [stylesOf_of_next hs hl, stylesOf_of_next hwide hw, stylesOf_break unbroken (.inl rfl),
            stylesOf_break unbroken (.inl rfl), hs]
          refine spread _ _ (ih rest ?_ further)
          show rest.length < us.length + 1
          omega

end Token

end Counterpart
