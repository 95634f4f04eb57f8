import Counterpart.Proofs.Block.Lap
import Counterpart.Proofs.Delimiter.Balance
import Counterpart.Proofs.Insertion.Document

/-! A scene with one line more, in which no search finds anything: the other lines and places only move. -/

namespace Counterpart

open Counterpart.Bracket Delimiter

namespace Scene

/-- One scene is another one with a line inserted that holds no bracket in code and no keyword. The places
behind it and the lines below it make room for it. -/
structure Interposes (scene wide : Scene) (gap lines : Gap) : Prop where
  selecting : wide.selecting = scene.selecting
  single : lines.length = 1
  within : lines.start < scene.document.lineCount
  lineCount : wide.document.lineCount = scene.document.lineCount + 1
  unit : ∀ o : Nat, wide.unit? (gap.place o : Nat) = scene.unit? o
  tags : ∀ o : Nat, wide.tags (gap.place o : Nat) = scene.tags o
  carries : ∀ line, scene.document.Carries wide.document gap line (lines.place line)
  feed : ∀ o : Nat, o + 1 = gap.start → scene.unit? o = some lineFeed
  bare : ∀ o, gap.start ≤ o → o < gap.start + gap.length → codeBracket? wide o = none
  silent : ∀ blocks, Block.keywordOfLine? blocks wide lines.start = none

end Scene

namespace KeywordTag

def shift (gap : Gap) (tag : KeywordTag) : KeywordTag :=
  ⟨tag.keyword, gap.shift tag.start, gap.shift tag.offset⟩

end KeywordTag

namespace Course

def shift (gap lines : Gap) (course : Course) : Course :=
  ⟨course.left, course.tag.shift gap, course.reached.map lines.place⟩

end Course

variable {scene wide : Scene} {gap lines : Gap} {blocks : List Block}

namespace Delimiter

lemma unit_blank (b : Bracket) : isIndent b.unit = false ∧ b.unit ≠ lineFeed := by
  rcases b with ⟨_ | _ | _, _ | _⟩ <;> decide

section

variable {scene : Scene} {o p : Nat} {s : Shape}

lemma partner?_opening_code (code : scene.inCode o = true)
    (ho : scene.unit? o = some (Bracket.unit ⟨s, true⟩)) :
    partner? scene (facing o true) = some p ↔ Paired (codeBracket? scene) o p :=
  (partner?_from_opening _ code ho p).trans (encloses_iff_paired o p)

lemma partner?_closing_code (code : scene.inCode p = true)
    (hp : scene.unit? p = some (Bracket.unit ⟨s, false⟩)) :
    partner? scene (facing p false) = some o ↔ Paired (codeBracket? scene) o p :=
  (partner?_from_closing _ code hp o).trans (encloses_iff_paired o p)

end

variable (h : scene.Interposes wide gap lines)
include h

lemma inCode_shift (o : Nat) : wide.inCode (gap.place o : Nat) = scene.inCode o := by
  simp only [Scene.inCode, Scene.inComment, Scene.inString, h.tags]

lemma opens_codeBracket? : gap.Opens (codeBracket? scene) (codeBracket? wide) where
  moved o := by rw [codeBracket?, codeBracket?, inCode_shift h, h.unit]
  empty := h.bare

section

variable {o : Nat} {b : Bracket} (code : scene.inCode o = true) (hb : scene.unit? o = some b.unit)
include code hb

lemma partner?_shift : partner? wide (facing (gap.place o : Nat) b.opening) =
    (partner? scene (facing o b.opening)).map gap.place := by
  have opens := opens_codeBracket? h
  have wideCode := (inCode_shift h o).trans code
  have wideUnit := (h.unit o).trans hb
  ext p
  rw [Option.map_eq_some_iff]
  obtain ⟨s, _ | _⟩ := b
  · rw [partner?_closing_code wideCode wideUnit, paired_place_right opens]
    simp only [partner?_closing_code code hb]
  · rw [partner?_opening_code wideCode wideUnit, paired_place_left opens]
    simp only [partner?_opening_code code hb]

lemma bound?_shift (apart : scene.Apart) : bound? wide (facing (gap.place o : Nat) b.opening) =
    (bound? scene (facing o b.opening)).map gap.shift := by
  rw [bound?_eq, bound?_eq, partner?_shift h code hb, Option.map_map, Option.map_map]
  refine Option.map_congr fun p hp => ?_
  obtain ⟨_, hu, _⟩ := partner?_back apart hb hp
  -- The gap opens behind a line feed, never behind a bracket.
  have further : gap.place (p + 1) = gap.place p + 1 := by
    have hne : p + 1 ≠ gap.start := fun he => by
      rw [h.feed p he] at hu
      exact (unit_blank b.flip).2 (Option.some.inj hu).symm
    simp only [Gap.place]
    split <;> split <;> omega
  have next : gap.shift ((p : Int) + 1) = (gap.place p : Int) + 1 := by
    have hn := gap.shift_natCast (p + 1)
    rwa [further] at hn
  cases b.opening
  · exact (gap.shift_natCast p).symm
  · exact next.symm

end

end Delimiter

section

variable (h : scene.Interposes wide gap lines)
include h

namespace Block

lemma keywordOfLine?_shift (line : Nat) :
    keywordOfLine? blocks wide (lines.place line) = keywordOfLine? blocks scene line := by
  have carried := h.carries line
  simp only [keywordOfLine?, carried.contentOfLine, carried.endOfLine, carried.contentUnits, Gap.place_inj,
    inCode_shift h]

lemma opens_keywordOfLine? : lines.Opens (keywordOfLine? blocks scene) (keywordOfLine? blocks wide) where
  moved := keywordOfLine?_shift h
  empty line hl hr := by
    rw [h.single] at hr
    obtain rfl : line = lines.start := by omega
    exact h.silent blocks

lemma partnerOfLine?_shift (line : Nat) (keyword : LineKeyword) :
    partnerOfLine? blocks wide (lines.place line) keyword =
      (partnerOfLine? blocks scene line keyword).map (Prod.map lines.place id) := by
  have opens : lines.Opens (keywordOfLine? blocks scene) (keywordOfLine? blocks wide) := opens_keywordOfLine? h
  rw [partnerOfLine?, partnerOfLine?, h.selecting, h.lineCount]
  split
  · exact seek_above opens h.single line
  · exact seek_below opens h.single h.within line

end Block

namespace KeywordTag

lemma ofLine_shift (line : Nat) (keyword : LineKeyword) :
    ofLine wide.document (lines.place line) keyword = (ofLine scene.document line keyword).shift gap := by
  have carried := h.carries line
  simp only [ofLine, shift, carried.contentOfLine, carried.endOfLine, ← Gap.shift_natCast]
  split <;> rfl

end KeywordTag

namespace Course

lemma follow_shift {line : Nat} {keyword : LineKeyword}
    (hk : Block.keywordOfLine? blocks scene line = some keyword) (reached : Option Nat) (hops : Nat) :
    follow blocks wide ((KeywordTag.ofLine scene.document line keyword).shift gap) (reached.map lines.place) hops =
      (follow blocks scene (.ofLine scene.document line keyword) reached hops).shift gap lines := by
  induction hops generalizing line keyword reached with
  | zero => rfl
  | succ hops ih =>
    have wideKeyword := (Block.keywordOfLine?_shift h line).trans hk
    rw [follow, follow, Block.partner?_ofLine hk, ← KeywordTag.ofLine_shift h, Block.partner?_ofLine wideKeyword,
      Block.partnerOfLine?_shift h]
    cases hp : Block.partnerOfLine? blocks scene line keyword with
    | none =>
      rw [KeywordTag.ofLine_shift h]
      rfl
    | some partner =>
      obtain ⟨other, found⟩ := partner
      have next := ih (Block.keyword_of_partner hp) (some other)
      rw [← KeywordTag.ofLine_shift h] at next
      exact next

lemma destination?_shift (origin : KeywordTag) (course : Course) :
    (course.shift gap lines).destination? wide (origin.shift gap) =
      (course.destination? scene origin).map gap.shift := by
  rw [destination?, destination?, shift, Option.map_map, Option.map_map]
  refine Option.map_congr fun line _ => ?_
  have carried := h.carries line
  simp only [Function.comp_apply, h.selecting, KeywordTag.shift, carried.contentOfLine, carried.endOfLine,
    ← Gap.shift_natCast, Gap.shift_lt_shift_iff]
  exact (apply_ite gap.shift _ _ _).symm

variable {line : Nat} {keyword : LineKeyword} (hk : Block.keywordOfLine? blocks scene line = some keyword)
include hk

lemma follow_shift_none (hops : Nat) :
    let tag := KeywordTag.ofLine scene.document line keyword
    follow blocks wide (tag.shift gap) none hops = (follow blocks scene tag none hops).shift gap lines :=
  follow_shift h hk none hops

lemma breaksOff_shift_iff :
    let tag := KeywordTag.ofLine scene.document line keyword
    BreaksOff blocks wide (tag.shift gap) ↔ BreaksOff blocks scene tag :=
  exists_congr fun hops => by rw [follow_shift_none h hk hops]; rfl

lemma exists_course_shift (count : Number) :
    let tag := KeywordTag.ofLine scene.document line keyword
    (∃ narrowCourse wideCourse, tag.course blocks scene count = .ok narrowCourse ∧
      (tag.shift gap).course blocks wide count = .ok wideCourse ∧
      wideCourse.destination? wide (tag.shift gap) = (narrowCourse.destination? scene tag).map gap.shift) ∨
    count.hops = none ∧ tag.course blocks scene count = .error .endless ∧
      (tag.shift gap).course blocks wide count = .error .endless := by
  intro tag
  have shifted : ∀ hops, (follow blocks wide (tag.shift gap) none hops).destination? wide (tag.shift gap) =
      ((follow blocks scene tag none hops).destination? scene tag).map gap.shift := fun hops => by
    rw [follow_shift_none h hk hops, destination?_shift h]
  cases limit : count.hops with
  | some hops =>
    exact .inl ⟨_, _, KeywordTag.course_of_some limit, KeywordTag.course_of_some limit, shifted hops⟩
  | none =>
    by_cases breaks : BreaksOff blocks scene tag
    · have wideBreaks : BreaksOff blocks wide (tag.shift gap) := (breaksOff_shift_iff h hk).mpr breaks
      refine .inl ⟨_, _, KeywordTag.course_of_breaksOff limit breaks,
        KeywordTag.course_of_breaksOff limit wideBreaks, ?_⟩
      -- the wide scene has one line more, so that its course is followed one hop further
      have broken := broken_of_breaksOff breaks
      rw [← shifted]
      refine destination?_of_broken (broken_of_breaksOff wideBreaks) ?_ _
      rw [follow_shift_none h hk]
      exact broken
    · have wideUnbroken : ¬ BreaksOff blocks wide (tag.shift gap) := mt (breaksOff_shift_iff h hk).mp breaks
      exact .inr ⟨rfl, KeywordTag.course_endless limit breaks, KeywordTag.course_endless limit wideUnbroken⟩

end Course

end

end Counterpart
