import Counterpart.Proofs.Loop
import Counterpart.Proofs.Token.Round

/-! The scan of a text as a loop: every round goes on and none leads beyond the end, so the rounds come to the
tokens of the text and paint its styling. -/

namespace Counterpart

namespace Token

open Counterpart.Units

def Stroke.paint (painted : Nat → Style) (stroke : Stroke) : Nat → Style := fun o =>
  if stroke.start ≤ o ∧ o < stroke.stop then stroke.style else painted o

structure Scan where
  place : Nat
  painted : Nat → Style

namespace Scan

def first : Scan := ⟨0, fun _ => .code⟩

def step (lex : Lexicon) (us : Units) (scan : Scan) : Scan ⊕ Scan :=
  if scan.place < us.length then
    let next := round us scan.place lex
    .inl ⟨next.stop, next.strokes.foldl Stroke.paint scan.painted⟩
  else .inr scan

end Scan

def spans (places : List Nat) : List (Nat × Nat) := places.zip places.tail

def inSpan (span : Nat × Nat) : List Nat := List.range' span.1 (span.2 - span.1)

lemma spans_cons_cons (a b : Nat) (places : List Nat) :
    spans (a :: b :: places) = (a, b) :: spans (b :: places) := rfl

def shown (styles : List Style) : Nat → Style := fun o => styles.getD o .code

lemma paint_behind (written : List Style) (covered : Nat) (style : Style) (n : Nat) :
    Stroke.paint (shown (written ++ List.replicate covered .commentDelimiter))
        ⟨style, written.length, written.length + n⟩ =
      shown (written ++ List.replicate n style ++ List.replicate (covered - n) .commentDelimiter) := by
  rw [← List.drop_replicate, List.append_assoc]
  funext o
  simp only [Stroke.paint, shown, List.getD_eq_getElem?_getD]
  by_cases before : o < written.length
  · rw [if_neg (by omega), List.getElem?_append_left before, List.getElem?_append_left before]
  · have behind := Nat.le_of_not_lt before
    rw [List.getElem?_append_right behind, List.getElem?_append_right behind]
    by_cases inside : o < written.length + n
    · have short : o - written.length < n := by omega
      rw [if_pos ⟨behind, inside⟩, List.getElem?_append_left (by rwa [List.length_replicate]),
        List.getElem?_replicate_of_lt short, Option.getD_some]
    · have beyond : n ≤ o - written.length := by omega
      rw [if_neg (fun h => inside h.2), List.getElem?_append_right (by rwa [List.length_replicate]),
        List.length_replicate, List.getElem?_drop, Nat.add_sub_cancel' beyond]

lemma paint_nothing {stroke : Stroke} (h : stroke.stop ≤ stroke.start) (painted : Nat → Style) :
    stroke.paint painted = painted := by
  funext o
  exact if_neg (by omega)

lemma shown_append_code (written : List Style) : shown (written ++ [.code]) = shown written := by
  funext o
  simp only [shown, List.getD_eq_getElem?_getD]
  by_cases before : o < written.length
  · rw [List.getElem?_append_left before]
  · have behind := Nat.le_of_not_lt before
    rw [List.getElem?_append_right behind, List.getElem?_eq_none behind]
    cases o - written.length <;> rfl

lemma paint_strokes (written : List Style) (covered : Nat) (token : Token) :
    (token.strokes written.length).foldl Stroke.paint
      (shown (written ++ List.replicate covered .commentDelimiter)) =
      shown (written ++ token.styles (if 0 < covered then .commentDelimiter else .code) ++
        List.replicate (max (covered - token.length) token.overhang) .commentDelimiter) := by
  cases token with
  | plain =>
    cases covered with
    | zero => simp [strokes, styles, overhang, shown_append_code]
    | succ covered => simp [strokes, styles, length, overhang, List.replicate_succ]
  | blockComment opener body closer =>
    have opened := paint_behind written covered .commentDelimiter opener
    have commented := paint_behind (written ++ List.replicate opener .commentDelimiter)
      (covered - opener) .comment body
    have closed := paint_behind
      (written ++ List.replicate opener .commentDelimiter ++ List.replicate body .comment)
      (covered - opener - body) .commentDelimiter closer
    simp only [List.length_append, List.length_replicate] at commented closed
    simp only [strokes, List.foldl_cons, List.foldl_nil, opened, commented, closed]
    simp [styles, length, overhang, Nat.sub_sub]
  | lineComment marker length =>
    rw [strokes, List.foldl_cons, List.foldl_cons, List.foldl_nil,
      paint_behind written covered .commentDelimiter marker]
    rcases Nat.le_total marker length with short | long
    · have commented := paint_behind (written ++ List.replicate marker .commentDelimiter)
        (covered - marker) .comment (length - marker)
      have stop : written.length + marker + (length - marker) = written.length + length := by omega
      have left : covered - marker - (length - marker) = covered - length := by omega
      rw [List.length_append, List.length_replicate, stop, left] at commented
      rw [commented]
      simp [styles, overhang, Token.length, Nat.min_eq_left short, Nat.sub_eq_zero_of_le short]
    · have left : marker + (covered - marker) = length + max (covered - length) (marker - length) := by omega
      rw [paint_nothing (Nat.add_le_add_left long _)]
      simp only [styles, overhang, Token.length, Nat.min_eq_right long, Nat.sub_eq_zero_of_le long,
        List.replicate_zero, List.append_nil, List.append_assoc, List.replicate_append_replicate, left]
  | string length => simp [strokes, styles, overhang, Token.length, paint_behind]
  | character length => simp [strokes, styles, overhang, Token.length, paint_behind]

namespace Scan

def after (written : Array Style) (covered : Nat) : Scan :=
  ⟨written.size, shown (written.toList ++ List.replicate covered .commentDelimiter)⟩

variable {lex : Lexicon} {us : Units}

lemma painted_after {written : Array Style} {o : Nat} (h : o < written.size) (covered : Nat) :
    (after written covered).painted o = written.getD o .code := by
  show List.getD _ o _ = _
  rw [List.getD_eq_getElem?_getD, List.getElem?_append_left h, Array.getElem?_toList, Array.getD_eq_getD_getElem?]

section

variable (unled : lex.MarkersUnled)
include unled

lemma step_after {written : Array Style} {u : UInt16} {rest : Units} (covered : Nat)
    (h : us.drop written.size = u :: rest) :
    let token := next lex u rest
    step lex us (after written covered) =
      .inl (after (written ++ token.styles (if 0 < covered then .commentDelimiter else .code))
        (max (covered - token.length) token.overhang)) := by
  intro token
  have paint := paint_strokes written.toList covered token
  rw [Array.length_toList] at paint
  rw [step, after, if_pos (lt_length_of_drop h), round_eq unled h, after, Styling.size_append_styles,
    Array.toList_appendList, ← paint]
  rfl

lemma ends_after {vs : Units} (written : Array Style) (covered : Nat) (h : us.drop written.size = vs)
    (hp : written.size ≤ us.length) :
    ∃ trace last, Ends (step lex us) (after written covered) trace last ∧
      let places := written.size :: trace.map place
      last.place = us.length ∧ places.Pairwise (· < ·) ∧
        (spans places).flatMap inSpan = List.range' written.size (us.length - written.size) ∧
        places = (boundaries (ofUnits lex vs)).map (written.size + ·) ∧
        ∃ left, last = after (Styling.paintOnto written covered (ofUnits lex vs)) left := by
  -- Over the units that are left; `covered` takes a marker's overhang along into the rounds behind its token.
  induction vs using token_induction lex generalizing written covered with
  | nil =>
    have whole : written.size = us.length := Nat.le_antisymm hp (List.drop_eq_nil_iff.mp h)
    refine ⟨[], after written covered, .leave (if_neg (Nat.not_lt.mpr (Nat.le_of_eq whole.symm))), whole,
      List.pairwise_singleton _ _, ?_, rfl, covered, rfl⟩
    rw [whole, Nat.sub_self]
    rfl
  | cons u rest ih =>
    have size := congrArg List.length h
    rw [List.length_drop, List.length_cons] at size
    have room := length_next_le lex u rest
    have goes := length_next_pos lex u rest
    have run := step_after unled covered h
    have tokens := ofUnits_cons lex u rest
    generalize next lex u rest = token at ih room goes run tokens
    obtain ⟨under, hu⟩ : ∃ under, under = if 0 < covered then Style.commentDelimiter else .code :=
      ⟨_, rfl⟩
    rw [← hu] at run
    have painted := Styling.size_append_styles written token under
    obtain ⟨trace, last, ends, place, order, tiles, places, left, styled⟩ := ih (written ++ token.styles under)
      (max (covered - token.length) token.overhang) (by rw [painted, ← List.drop_drop, h]) (by omega)
    rw [painted] at order tiles places
    have behind : written.size < written.size + token.length := Nat.lt_add_of_pos_right goes
    refine ⟨_, last, .again run ends, place, ?_, ?_, ?_, left, ?_⟩ <;>
      simp only [List.map_cons, after, painted, tokens]
    · have first : ∀ p ∈ trace.map Scan.place, written.size < p := fun p hp =>
        Nat.lt_trans behind (List.rel_of_pairwise_cons order hp)
      exact .cons (List.forall_mem_cons.mpr ⟨behind, first⟩) order
    · rw [spans_cons_cons, List.flatMap_cons, tiles, inSpan, Nat.add_sub_cancel_left, List.range'_append_1]
      congr 1
      omega
    · rw [places, boundaries, List.map_cons, List.map_map]
      simp only [Function.comp_def, Nat.add_assoc, Nat.add_zero]
    · rw [Styling.paintOnto, ← hu]
      exact styled

end

end Scan

variable {lex : Lexicon} {us : Units} {place : Nat}

lemma round_bounds (unled : lex.MarkersUnled) (h : place < us.length) :
    place < (round us place lex).stop ∧ (round us place lex).stop ≤ us.length := by
  have goes := length_next_pos lex us[place] (us.drop (place + 1))
  have room := length_next_le lex us[place] (us.drop (place + 1))
  rw [List.length_drop] at room
  rw [round_eq unled (List.drop_eq_getElem_cons h)]
  constructor
  · exact Nat.lt_add_of_pos_right goes
  · show place + _ ≤ us.length
    omega

lemma strokes_within {token : Token} (h : token.overhang = 0) :
    ∀ stroke ∈ token.strokes place, place ≤ stroke.start ∧ stroke.stop ≤ place + token.length := by
  cases token <;> simp [strokes, overhang, length] at h ⊢ <;> omega

lemma round_within (inline : lex.MarkersInline) (h : place < us.length) :
    ∀ stroke ∈ (round us place lex).strokes, place ≤ stroke.start ∧
    stroke.stop ≤ (round us place lex).stop := by
  rw [round_eq inline.unled (List.drop_eq_getElem_cons h)]
  exact strokes_within (overhang_next inline _ _)

section

variable {marker : Units} (opened : blockRound? us place lex.blockComments = none)
  (begins : lex.lineComments.find? (beginsAt us place) = some marker) (led : marker.head? = some lineFeed)
include opened begins led

lemma round_led : place < us.length ∧ (round us place lex).stop = place := by
  obtain ⟨tail, rfl⟩ := List.head?_eq_some_iff.mp led
  have stands : beginsAt us place (lineFeed :: tail) = true := List.find?_some begins
  obtain ⟨rest, text⟩ := List.isPrefixOf_iff_prefix.mp (Bool.and_eq_true_iff.mp stands).2
  have feed : findBehind? us place [lineFeed] = some place := by
    rw [findBehind?, find?_singleton, ← text, List.cons_append, List.idxOf?_cons, if_pos (beq_self_eq_true _)]
    rfl
  refine ⟨lt_length_of_drop text.symm, ?_⟩
  rw [round, opened, lineRound?, begins, Option.map_some, feed]
  rfl

lemma not_ends_led (painted : Nat → Style) (trace : List Scan) (last : Scan) :
    ¬ Ends (Scan.step lex us) ⟨place, painted⟩ trace last := by
  obtain ⟨inside, stays⟩ := round_led opened begins led
  have again : ∀ painted, ∃ next, Scan.step lex us ⟨place, painted⟩ = .inl ⟨place, next⟩ := by
    intro painted
    simp only [Scan.step, if_pos inside, stays]
    exact ⟨_, rfl⟩
  intro ends
  induction trace generalizing painted with
  | nil =>
    obtain ⟨next, step⟩ := again painted
    cases ends with
    | leave leaves => rw [leaves] at step; contradiction
  | cons scan trace ih =>
    obtain ⟨next, step⟩ := again painted
    cases ends with
    | again goes ends =>
      rw [goes] at step
      obtain rfl := Sum.inl.inj step
      exact ih next ends

end

/-- When no line comment's marker begins with a line feed, as in every language that is known, a round goes on
and not beyond the text. So the scan ends with the text, its rounds cover the text from token to token, and
what it has painted is the styling. When no marker holds a line feed at all, a round paints within its own
stretch only. -/
theorem scan_advances_and_tiles :
    (∀ language, (Lexicon.ofLanguage language).MarkersInline ∧ (Lexicon.ofLanguage language).MarkersUnled) ∧
    ∀ (lex : Lexicon) (text : Text), lex.MarkersUnled →
      let us := text.toUnits
      (∀ place < us.length, place < (round us place lex).stop ∧ (round us place lex).stop ≤ us.length) ∧
      (∃ trace last, Ends (Scan.step lex us) .first trace last ∧
        let places := 0 :: trace.map Scan.place
        last.place = us.length ∧ places.Pairwise (· < ·) ∧
          (spans places).flatMap inSpan = List.range us.length ∧
          places = boundaries (ofUnits lex us) ∧
          ∀ o < us.length, last.painted o = (Styling.ofText lex text).styles.getD o .code) ∧
      (lex.MarkersInline → ∀ place < us.length, ∀ stroke ∈ (round us place lex).strokes,
        place ≤ stroke.start ∧ stroke.stop ≤ (round us place lex).stop) := by
  refine ⟨fun language => ?_, fun lex text unled =>
    ⟨fun place h => round_bounds unled h, ?_, fun inline place h => round_within inline h⟩⟩
  · have inline := Lexicon.markersInline_ofLanguage language
    exact ⟨inline, inline.unled⟩
  · have start : text.toUnits.drop (#[] : Array Style).size = text.toUnits := rfl
    obtain ⟨trace, last, ends, stop, order, tiles, places, left, styled⟩ :=
      Scan.ends_after unled #[] 0 start (Nat.zero_le _)
    refine ⟨trace, last, ends, stop, order, ?_, ?_, fun o h => ?_⟩
    · rw [List.range_eq_range']
      exact tiles
    · simpa using places
    · have size := Styling.size_paintOnto #[] 0 (ofUnits lex text.toUnits)
      rw [extent_ofUnits, Array.size_empty, Nat.zero_add] at size
      rw [styled]
      exact Scan.painted_after (by rwa [size]) left

theorem scan_advances_past_line_feed_and_escape :
    let lex : Lexicon :=
      ⟨[units "#\n!", []], [([], units "x"), (units "<<", [])], [units "\""], [], units "\\", none⟩
    let rust := Lexicon.ofLanguage "rust"
    let us := units "#\n!<<a\"\\"
    lex.MarkersUnled ∧ rust.MarkersUnled ∧ rust.MarkersInline ∧ us.length = 8 ∧
      (∃ trace last, Ends (Scan.step lex us) .first trace last ∧ last.place = 8 ∧
        0 :: trace.map Scan.place = [0, 1, 2, 3, 5, 6, 8]) ∧
      ∀ stroke ∈ (round us 6 rust).strokes, 6 ≤ stroke.start ∧ stroke.stop ≤ 8 := by
  intro lex rust us
  have unled : lex.MarkersUnled := show ∀ marker ∈ lex.lineComments, marker.head? ≠ some lineFeed by decide
  obtain ⟨builtin, every⟩ := scan_advances_and_tiles
  obtain ⟨inline, rusted⟩ := builtin "rust"
  obtain ⟨-, ⟨trace, last, ends, stop, -, -, places, -⟩, -⟩ := every lex (.ofUnits us) unled
  obtain ⟨bounds, -, within⟩ := every rust (.ofUnits us) rusted
  rw [Text.toUnits_ofUnits] at ends stop places bounds within
  have inside : 6 < us.length := by decide
  have behind : (round us 6 rust).stop ≤ 8 := (bounds 6 inside).2
  refine ⟨unled, rusted, inline, rfl, ⟨trace, last, ends, stop, places.trans (by decide +kernel)⟩,
    fun stroke hs => ?_⟩
  obtain ⟨start, painted⟩ := within inline 6 inside stroke hs
  exact ⟨start, Nat.le_trans painted behind⟩

end Token

end Counterpart
