import Counterpart.Proofs.Block.Lap
import Counterpart.Proofs.LineBreak.Delimiter

namespace Counterpart

open Counterpart.Units

variable {scene wide : Scene} {blocks : List Block}

namespace Block

lemma solidAt_of_keyword {line : Nat} {keyword : LineKeyword}
    (h : keywordOfLine? blocks scene line = some keyword) :
    scene.SolidAt (scene.document.contentOfLine line) ∧ ∃ last, scene.document.endOfLine line = last + 1 ∧
      scene.document.lineAt last = line ∧ scene.SolidAt last := by
  obtain ⟨hs, _⟩ := Document.contentOfLine_bounds (lt_lineCount_of_keyword h)
  obtain ⟨last, he, hle, hline⟩ := exists_last_of_keyword h
  refine ⟨Document.unit_of_line hs (content_lt_of_keyword h), last, he, hline, ?_⟩
  exact Document.unit_of_line (Nat.le_trans hs hle) (by omega)

end Block

namespace KeywordTag

def widen (text : Text) (tag : KeywordTag) : KeywordTag :=
  ⟨tag.keyword, text.place tag.start, text.place tag.offset⟩

end KeywordTag

namespace Course

def widen (text : Text) (course : Course) : Course := ⟨course.left, course.tag.widen text, course.reached⟩

lemma encloses_destination? (extending : scene.selecting = true) {offset : Int} {tag : KeywordTag}
    (ht : KeywordTag.at? blocks scene offset = some tag) :
    ∀ destination ∈ (follow blocks scene tag none 1).destination? scene tag,
      scene.Encloses tag.start destination := by
  intro destination hd
  obtain ⟨keyword, hk, rfl⟩ := Option.map_eq_some_iff.mp ht
  clear ht
  generalize scene.document.lineAt offset = line at hk hd ⊢
  cases hp : Block.partnerOfLine? blocks scene line keyword with
  | none =>
    rw [follow, Block.partner?_ofLine hk, hp] at hd
    contradiction
  | some partner =>
    obtain ⟨other, found⟩ := partner
    have hf := Block.keyword_of_partner hp
    obtain ⟨first, last, he, hlast, solid⟩ := Block.solidAt_of_keyword hk
    obtain ⟨firstOther, lastOther, heOther, hlastOther, solidOther⟩ := Block.solidAt_of_keyword hf
    have hcontent := Document.lineAt_contentOfLine (Block.lt_lineCount_of_keyword hk)
    have hcontentOther := Document.lineAt_contentOfLine (Block.lt_lineCount_of_keyword hf)
    -- the lower of the two lines is taken to its end
    by_cases closing : keyword.role = .closing
    · obtain ⟨above, _⟩ := Block.partner_above closing hp
      rw [Block.destination?_above closing hk hp] at hd
      have order : (scene.document.contentOfLine other : Int) < last := by
        apply Document.lt_of_lineAt_lt
        rwa [hlast, hcontentOther]
      refine ⟨_, last, Int.ofNat_le.mp (Int.le_of_lt order), firstOther, solid,
        .inr ⟨?_, (Option.some.inj hd).symm⟩⟩
      simp [KeywordTag.ofLine, closing, he]
    · obtain ⟨below, _⟩ := Block.partner_below extending closing hp
      rw [Block.destination?_below extending closing hk hp, heOther] at hd
      have order : (scene.document.contentOfLine line : Int) < lastOther := by
        apply Document.lt_of_lineAt_lt
        rwa [hlastOther, hcontent]
      have hstop := (Option.some.inj hd).symm
      refine ⟨_, lastOther, Int.ofNat_le.mp (Int.le_of_lt order), first, solidOther, .inl ⟨?_, hstop⟩⟩
      simp [KeywordTag.ofLine, closing]

end Course

variable (h : scene.Widens wide)
include h

namespace Block

lemma keywordOfLine?_eq : keywordOfLine? blocks wide = keywordOfLine? blocks scene := by
  funext line
  have mono := place_strictMono scene.document.text.toUnits
  simp only [keywordOfLine?, h.document.contentOfLine_eq, h.document.endOfLine_eq, h.document.contentUnits_eq,
    mono.injective.eq_iff]
  by_cases he : scene.document.contentOfLine line = scene.document.endOfLine line
  · simp [he]
  · have hl : line < scene.document.lineCount := by
      apply Nat.lt_of_not_le
      intro hle
      obtain ⟨hc, hend⟩ := Document.contentOfLine_of_le hle
      exact he (hc.trans hend.symm)
    obtain ⟨hs, hle⟩ := Document.contentOfLine_bounds hl
    obtain ⟨u, hu, solid⟩ := Document.unit_of_line hs (Nat.lt_of_le_of_ne hle he)
    rw [h.inCode_place hu solid]

lemma partnerOfLine?_eq : partnerOfLine? blocks wide = partnerOfLine? blocks scene := by
  funext line keyword
  rw [partnerOfLine?, partnerOfLine?, keywordOfLine?_eq h, h.selecting, h.document.lineCount_eq_lineCount]

end Block

namespace KeywordTag

lemma ofLine_eq (line : Nat) (keyword : LineKeyword) :
    ofLine wide.document line keyword = (ofLine scene.document line keyword).widen scene.document.text := by
  rw [ofLine, ofLine, h.document.contentOfLine_eq, h.document.endOfLine_eq, widen]
  split <;> simp [Text.place_natCast]

lemma at?_place (offset : Int) : at? blocks wide (scene.document.text.place offset) =
    (at? blocks scene offset).map (widen scene.document.text) := by
  rw [at?, at?, Block.keywordOfLine?_eq h, h.document.lineAt_place, Option.map_map]
  congr 1
  funext keyword
  exact ofLine_eq h _ keyword

lemma partner?_widen (tag : KeywordTag) :
    (tag.widen scene.document.text).partner? blocks wide = tag.partner? blocks scene := by
  rw [partner?, partner?, Block.partnerOfLine?_eq h, widen, h.document.lineAt_place]

end KeywordTag

namespace Course

lemma follow_widen (tag : KeywordTag) (reached : Option Nat) (hops : Nat) :
    follow blocks wide (tag.widen scene.document.text) reached hops =
      (follow blocks scene tag reached hops).widen scene.document.text := by
  induction hops generalizing tag reached with
  | zero => rfl
  | succ hops ih =>
    rw [follow, follow, KeywordTag.partner?_widen h]
    cases tag.partner? blocks scene with
    | none => rfl
    | some partner =>
      simp only [KeywordTag.ofLine_eq h]
      exact ih _ _

lemma destination?_widen (origin : KeywordTag) (course : Course) :
    (course.widen scene.document.text).destination? wide (origin.widen scene.document.text) =
      (course.destination? scene origin).map scene.document.text.place := by
  rw [destination?, destination?, Option.map_map]
  congr 1
  funext line
  simp only [Function.comp_apply, h.selecting, widen, KeywordTag.widen, h.document.contentOfLine_eq,
    h.document.endOfLine_eq, ← Text.place_natCast, Text.place_lt_place_iff]
  exact (apply_ite _ _ _ _).symm

end Course

end Counterpart
