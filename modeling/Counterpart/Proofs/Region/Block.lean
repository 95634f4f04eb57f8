import Counterpart.Proofs.Block.Pairing
import Counterpart.Proofs.Region.Between

namespace Counterpart

namespace Region

open Block Counterpart.Bracket Delimiter

variable {blocks : List Block} {scene : Scene} {number o c : Nat}

lemma content_le_end_of_paired (paired : Paired (brackets number (keywordOfLine? blocks scene)) o c) :
    scene.document.contentOfLine o ≤ scene.document.endOfLine c := by
  obtain ⟨_, closes⟩ := Block.ends_of_paired paired
  have order := Document.contentOfLine_lt paired.1 (lt_lineCount_of_keyword closes)
  exact Nat.le_of_lt (Nat.lt_trans order (content_lt_of_keyword closes))

lemma yields_resolve_keyword {name : String} {rules : List Rule} {cursor destination : Int} {tag : KeywordTag}
    (notSimple : scene.isSimple = false) (still : ∀ scene, ∀ rule ∈ rules, rule.Still scene) (inner : Bool) :
    let extending : Scene := { scene with selecting := true }
    KeywordTag.at? blocks extending cursor = some tag →
    (Course.follow blocks extending tag none 1).destination? extending tag = some destination →
    (resolve scene (Rule.keywords name blocks :: rules) 1 inner).Yields cursor
      (some (ofEnds scene inner tag.start destination)) cursor := by
  intro extending ht hd
  have hc := tag.course_once blocks extending
  have operates := @Item.yields_operate_keywords extending rules cursor name blocks tag 1 _ notSimple
    (still extending) ht hc
  rw [hd] at operates
  exact yields_resolve operates

lemma yields_resolve_block {name : String} {rules : List Rule} {cursor : Int} (notSimple : scene.isSimple = false)
    (still : ∀ scene, ∀ rule ∈ rules, rule.Still scene)
    (paired : Paired (brackets number (keywordOfLine? blocks scene)) o c)
    (line : scene.document.lineAt cursor = o ∨ scene.document.lineAt cursor = c) (inner : Bool) :
    (resolve scene (Rule.keywords name blocks :: rules) 1 inner).Yields cursor
      (some (ofEnds scene inner (scene.document.contentOfLine o) (scene.document.endOfLine c))) cursor := by
  let extending : Scene := { scene with selecting := true }
  replace paired : Paired (brackets number (keywordOfLine? blocks extending)) o c := paired
  obtain ⟨opens, closes⟩ := Block.ends_of_paired paired
  rcases line with line | line
  · have tag : KeywordTag.at? blocks extending cursor =
        some (.ofLine extending.document o ⟨number, .opening⟩) := by
      change (keywordOfLine? blocks extending (scene.document.lineAt cursor)).map _ = _
      rw [line, opens, Option.map_some]
    have down : partnerOfLine? blocks extending o ⟨number, .opening⟩ = some (c, ⟨number, .closing⟩) :=
      (partnerOfLine?_opening rfl opens rfl).mpr ⟨paired, closes⟩
    have found := @yields_resolve_keyword _ scene name _ _ _ _ notSimple still inner tag
      (destination?_below rfl (by simp) opens down)
    rwa [KeywordTag.ofLine, if_neg (by simp)] at found
  · have tag : KeywordTag.at? blocks extending cursor =
        some (.ofLine extending.document c ⟨number, .closing⟩) := by
      change (keywordOfLine? blocks extending (scene.document.lineAt cursor)).map _ = _
      rw [line, closes, Option.map_some]
    have up : partnerOfLine? blocks extending c ⟨number, .closing⟩ = some (o, ⟨number, .opening⟩) :=
      (partnerOfLine?_closing closes rfl).mpr ⟨paired, opens⟩
    rw [ofEnds_comm]
    have found := @yields_resolve_keyword _ scene name _ _ _ _ notSimple still inner tag
      (destination?_above rfl closes up)
    rwa [KeywordTag.ofLine, if_pos rfl] at found

section

variable (paired : Paired (brackets number (keywordOfLine? blocks scene)) o c)
include paired

lemma ofEnds_outer_block :
    ofEnds scene false (scene.document.contentOfLine o) (scene.document.endOfLine c) =
      ⟨scene.document.startOfLine o, scene.document.endOfLine c, false⟩ := by
  have opening := lt_lineCount_of_keyword (Block.ends_of_paired paired).1
  rw [ofEnds_outer (Int.ofNat_le.mpr (content_le_end_of_paired paired)), outer,
    if_pos (Document.onlyBlanksBefore_contentOfLine opening), Document.lineStart,
      Document.lineAt_contentOfLine opening]

lemma ofEnds_inner_block (drops : scene.settings.innerKeepsLastLine.contains scene.document.language = false) :
    ofEnds scene true (scene.document.contentOfLine o) (scene.document.endOfLine c) =
      ⟨scene.document.startOfLine (o + 1),
        max (scene.document.endOfLine (c - 1) : Int) (scene.document.startOfLine (o + 1)), true⟩ := by
  obtain ⟨opens, closes⟩ := Block.ends_of_paired paired
  obtain ⟨last, hend, _, hline⟩ := exists_last_of_keyword closes
  have hfirst := Document.lineAt_contentOfLine (lt_lineCount_of_keyword opens)
  have inside := scene.document.endOfLine_le_length c
  rw [hend] at inside
  rw [ofEnds_inner drops (Int.ofNat_le.mpr (content_le_end_of_paired paired)), hend, Int.natCast_succ,
    between_below false inside (by rw [hfirst, hline]; exact paired.1), hfirst, hline]
  rfl

end

/-- The region of a keyword block is one and the same from all of its opening line and all of its closing
line: outside, it goes from the beginning of the one to the end of the other; inside, it takes just the lines
between the two. -/
theorem block_region_from_either_line (scene : Scene) (blocks : List Block)
    (listed : (scene.document.language, blocks) ∈ Rulebook.keywordLanguages) (notSimple : scene.isSimple = false)
    (drops : scene.settings.innerKeepsLastLine.contains scene.document.language = false) (o c : Nat)
    (opens : roleOfLine? blocks scene o = some .opening)
    (closes : counterpartLine? blocks { scene with selecting := true } o = some c) (cursor : Int)
    (line : scene.document.lineAt cursor = o ∨ scene.document.lineAt cursor = c) :
    let doc := scene.document
    let rules := Rulebook.standard.lookup doc.language
    o < c ∧ roleOfLine? blocks scene c = some .closing ∧
      (resolve scene rules 1 false).Yields cursor (some ⟨doc.startOfLine o, doc.endOfLine c, false⟩) cursor ∧
      (o + 1 < c → (resolve scene rules 1 true).Yields cursor
        (some ⟨doc.startOfLine (o + 1), doc.endOfLine (c - 1), true⟩) cursor) ∧
      (o + 1 = c → (resolve scene rules 1 true).Yields cursor
        (some ⟨doc.startOfLine c, doc.startOfLine c, true⟩) cursor) := by
  intro doc rules
  obtain ⟨name, hl⟩ : ∃ name, rules = [Rule.keywords name blocks, Rule.delimiters] :=
    Rulebook.lookup_of_keywordLanguages listed
  obtain ⟨⟨number, role⟩, hk, rfl⟩ := Option.map_eq_some_iff.mp opens
  have paired : Paired (brackets number (keywordOfLine? blocks scene)) o c :=
    (@counterpartLine?_opening blocks { scene with selecting := true } o c number rfl hk).mp closes
  obtain ⟨_, hc⟩ := Block.ends_of_paired paired
  have hlast : c < doc.lineCount := lt_lineCount_of_keyword hc
  have resolves : ∀ inner, (resolve scene rules 1 inner).Yields cursor
      (some (ofEnds scene inner (doc.contentOfLine o) (doc.endOfLine c))) cursor := by
    rw [hl]
    exact yields_resolve_block notSimple Rule.still_delimiters paired line
  have outer := resolves false
  have inner := resolves true
  rw [ofEnds_outer_block paired] at outer
  rw [ofEnds_inner_block paired drops] at inner
  refine ⟨paired.1, by rw [roleOfLine?, hc, Option.map_some], outer, fun apart => ?_, fun adjacent => ?_⟩
  · have first : doc.startOfLine (o + 1) ≤ doc.endOfLine (c - 1) := by
      obtain ⟨hs, hline, hb⟩ := @Document.startOfLine_le_endOfLine doc (c - 1) (by omega)
      exact (Document.startOfLine_le_iff (by omega) hb).mpr (by omega)
    rwa [Int.max_eq_left (Int.ofNat_le.mpr first)] at inner
  · have before := (@Document.lineEnd_above doc o (by omega)).2
    rw [← adjacent, Nat.add_sub_cancel] at inner
    rwa [Int.max_eq_right (Int.ofNat_le.mpr (Nat.le_of_lt before)), adjacent] at inner

theorem block_region_from_indented_fi :
    let scene := Scene.ofText (.ofString "  if a\r\n  else\r\n    b\r\n  fi\r\n") "shellscript" {} false
    let rules := Rulebook.standard.lookup "shellscript"
    roleOfLine? shell scene 0 = some .opening ∧
      counterpartLine? shell { scene with selecting := true } 0 = some 3 ∧ scene.document.lineAt 24 = 3 ∧
      (resolve scene rules 1 false).Yields 24 (some ⟨0, 27, false⟩) 24 ∧
      (resolve scene rules 1 true).Yields 24 (some ⟨8, 21, true⟩) 24 := by
  intro scene rules
  obtain ⟨opens, closes, line⟩ : roleOfLine? shell scene 0 = some .opening ∧
      counterpartLine? shell { scene with selecting := true } 0 = some 3 ∧ scene.document.lineAt 24 = 3 := by
    decide +kernel
  obtain ⟨_, _, outer, inner, _⟩ := block_region_from_either_line scene shell
    (show ("shellscript", shell) ∈ Rulebook.keywordLanguages by simp [Rulebook.keywordLanguages]) (by decide)
    (by decide +kernel) 0 3 opens closes 24 (.inr line)
  obtain ⟨first, last, second, third⟩ : scene.document.startOfLine 0 = 0 ∧
      scene.document.endOfLine 3 = 27 ∧
      scene.document.startOfLine 1 = 8 ∧ scene.document.endOfLine 2 = 21 := by
    decide +kernel
  rw [first, last] at outer
  rw [second, third] at inner
  exact ⟨opens, closes, line, outer, inner (by decide)⟩

end Region

end Counterpart
