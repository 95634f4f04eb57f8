import Counterpart.Block.Builtin
import Counterpart.Proofs.Insertion.CommentLine
import Counterpart.Proofs.Insertion.Scene

namespace Counterpart

open Delimiter

namespace CommentLine

open Token

section

variable {lex : Lexicon} {line : CommentLine lex} {wide : Scene} {a b : Units}
  (units : wide.document.text.toUnits = a ++ line.units ++ b)
  (commented : ∀ k, line.indent.length ≤ k → k < (line.indent ++ line.comment).length →
    wide.inCode (a.length + k : Nat) = false)
include units commented

lemma codeBracket?_in_line {k : Nat} (hk : k < line.units.length) : codeBracket? wide (a.length + k) = none := by
  rw [Option.eq_none_iff_forall_ne_some]
  intro bracket hb
  obtain ⟨code, hu⟩ := codeBracket?_eq_some_iff.mp hb
  rcases line.unit_cases hk with ⟨u, here, blank⟩ | ⟨behind, within⟩
  · have unit : wide.unit? (a.length + k : Nat) = some u := by
      change wide.document.text.units[_]? = _
      rw [← Text.getElem?_toUnits, units, Gap.getElem?_between a b hk, here]
    obtain rfl := Option.some.inj (unit.symm.trans hu)
    obtain ⟨solid, hne⟩ := unit_blank bracket
    rcases blank with indent | feed
    · exact absurd indent (by rw [solid]; exact Bool.false_ne_true)
    · exact hne feed
  · rw [commented k behind within] at code
    contradiction

lemma keywordOfLine?_line (unbroken : lex.Unbroken) (unindented : lex.Unindented)
    (first : a = [] ∨ ∃ us, a = us ++ [lineFeed]) (blocks : List Block) :
    Block.keywordOfLine? blocks wide (a.count lineFeed) = none := by
  rw [Option.eq_none_iff_forall_ne_some]
  intro keyword hk
  have code := Block.inCode_of_keyword hk
  have cut : wide.document.Cut a (line.indent ++ line.comment) (lineFeed :: b) := by
    refine ⟨?_, first, line.inline_line unbroken, .inr ⟨b, rfl⟩⟩
    rw [units, CommentLine.units]
    simp only [List.append_assoc, List.singleton_append]
  obtain ⟨u, rest, hc, solid⟩ := line.exists_comment unindented
  have within : line.indent.length < (line.indent ++ line.comment).length := by
    rw [List.length_append]
    exact Nat.lt_add_of_pos_right (line.comment_pos unindented)
  rw [cut.contentOfLine, hc, Document.takeWhile_shown line.blank solid, commented _ (Nat.le_refl _) within] at code
  contradiction

end

lemma exists_styles {lex : Lexicon} (line : CommentLine lex) (unbroken : lex.Unbroken)
    (unindented : lex.Unindented) {a b : Units}
    (ends : a = [] ∨ ∃ us, a = us ++ [lineFeed] ∧ (stylesOf lex (a ++ b))[us.length]? = some .code) :
    ∃ styles : List Style, styles.length = line.units.length ∧
      (∀ k, line.indent.length ≤ k → k < (line.indent ++ line.comment).length →
        ∃ style, styles[k]? = some style ∧ style.tags.comment = true) ∧
      stylesOf lex (a ++ b) = stylesOf lex a ++ stylesOf lex b ∧
      stylesOf lex (a ++ line.units ++ b) = stylesOf lex a ++ styles ++ stylesOf lex b := by
  obtain ⟨styles, hl, comment, hline⟩ := line.stylesOf_line unbroken unindented b
  refine ⟨styles, hl, comment, stylesOf_append unbroken ends b, ?_⟩
  rw [List.append_assoc, stylesOf_append unbroken ends, hline, List.append_assoc]

end CommentLine

namespace Scene

open Token

lemma style_of_tags {style : Style} (h : style.tags = Style.code.tags) : style = .code := by
  cases style <;> simp [Style.tags] at h ⊢

section

variable (us : Units) (language : String) (settings : Settings) (selecting : Bool) (o : Nat)

lemma unit?_ofUnits : (ofText (.ofUnits us) language settings selecting).unit? o = us[o]? := List.getElem?_toArray

lemma tags_ofUnits : (ofText (.ofUnits us) language settings selecting).tags o =
    ((stylesOf (Lexicon.ofLanguage language) us)[o]?.getD .code).tags := by
  rw [tags_ofText, Text.toUnits_ofUnits]

variable {us language settings selecting o}

lemma code_of_tags (ho : o < us.length)
    (h : (ofText (.ofUnits us) language settings selecting).tags o = Style.code.tags) :
    (stylesOf (Lexicon.ofLanguage language) us)[o]? = some .code := by
  have inside : o < (stylesOf (Lexicon.ofLanguage language) us).length := by rwa [length_stylesOf]
  rw [tags_ofUnits, List.getElem?_eq_getElem inside, Option.getD_some] at h
  rw [List.getElem?_eq_getElem inside, style_of_tags h]

end

lemma interposes_ofText (language : String) (settings : Settings) (selecting : Bool) (a b : Units)
    (line : CommentLine (Lexicon.ofLanguage language))
    (ends : a = [] ∨ ∃ us, a = us ++ [lineFeed] ∧
      (ofText (.ofUnits (a ++ b)) language settings selecting).tags us.length = Style.code.tags) :
    (ofText (.ofUnits (a ++ b)) language settings selecting).Interposes
      (ofText (.ofUnits (a ++ line.units ++ b)) language settings selecting) (.offsets a line.units)
      (.number a) := by
  have unbroken := Lexicon.unbroken_ofLanguage language
  have unindented := Lexicon.unindented_ofLanguage language
  have first : a = [] ∨ ∃ us, a = us ++ [lineFeed] := ends.imp_right fun ⟨us, hs, _⟩ => ⟨us, hs⟩
  have code : a = [] ∨ ∃ us, a = us ++ [lineFeed] ∧
      (stylesOf (Lexicon.ofLanguage language) (a ++ b))[us.length]? = some .code :=
    ends.imp_right fun ⟨us, hs, ht⟩ => ⟨us, hs, code_of_tags (by simp [hs]) ht⟩
  obtain ⟨styles, hl, comment, narrow, wide⟩ := line.exists_styles unbroken unindented code
  have inserts : (ofText (.ofUnits (a ++ b)) language settings selecting).document.Inserts
      (ofText (.ofUnits (a ++ line.units ++ b)) language settings selecting).document a line.units b :=
    ⟨Text.toUnits_ofUnits _, Text.toUnits_ofUnits _, first, _, rfl, line.inline_line unbroken⟩
  have commented : ∀ k, line.indent.length ≤ k → k < (line.indent ++ line.comment).length →
      (ofText (.ofUnits (a ++ line.units ++ b)) language settings selecting).inCode (a.length + k : Nat) =
        false := by
    intro k behind within
    obtain ⟨style, hs, hc⟩ := comment k behind within
    obtain ⟨inside, _⟩ := List.getElem?_eq_some_iff.mp hs
    have here :=
      Gap.getElem?_between (stylesOf (.ofLanguage language) a) (stylesOf (.ofLanguage language) b) inside
    rw [length_stylesOf, hs] at here
    rw [inCode, inComment, tags_ofUnits, wide, here, Option.getD_some, hc]
    rfl
  exact {
    selecting := rfl
    single := rfl
    within := inserts.number_lt_lineCount
    lineCount := inserts.lineCount_eq_succ
    unit := fun o => by
      rw [unit?_ofUnits, unit?_ofUnits]
      exact Gap.getElem?_place a line.units b o
    tags := fun o => by
      have place :=
        Gap.getElem?_place (stylesOf (.ofLanguage language) a) styles (stylesOf (.ofLanguage language) b) o
      rw [length_stylesOf, hl] at place
      rw [tags_ofUnits, tags_ofUnits, wide, narrow]
      exact congrArg (fun style : Option Style => (style.getD .code).tags) place
    carries := inserts.carries
    feed := fun o ho => by
      rcases first with rfl | ⟨us, rfl⟩
      · contradiction
      · obtain rfl : o = us.length := by simpa [Gap.offsets] using ho
        rw [unit?_ofUnits]
        simp
    bare := fun o first last => by
      obtain ⟨k, rfl⟩ := Nat.exists_eq_add_of_le first
      exact line.codeBracket?_in_line inserts.wideUnits commented (Nat.lt_of_add_lt_add_left last)
    silent := line.keywordOfLine?_line inserts.wideUnits commented unbroken unindented first }

/-- A line of comment is transparent to matching. Inserted where a line begins, behind a line feed that is
code, it leaves each bracket in code its partner and each jump from a keyword line its destination, or its
lack of an end: they only move with the text behind the line. The comment itself may hold brackets, quotes and
keywords. -/
theorem comment_line_changes_no_match (language : String) (settings : Settings) (selecting : Bool) (a b : Units)
    (line : CommentLine (Lexicon.ofLanguage language)) :
    let plain := ofText (.ofUnits (a ++ b)) language settings selecting
    let commented := ofText (.ofUnits (a ++ line.units ++ b)) language settings selecting
    let gap := Gap.offsets a line.units
    (a = [] ∨ ∃ us, a = us ++ [lineFeed] ∧ plain.tags us.length = Style.code.tags) →
    (∀ (o : Nat) (bracket : Bracket), plain.unit? o = some bracket.unit → plain.inCode o = true →
      partner? commented (facing (gap.place o : Nat) bracket.opening) =
        (partner? plain (facing o bracket.opening)).map gap.place ∧
      bound? commented (facing (gap.place o : Nat) bracket.opening) =
        (bound? plain (facing o bracket.opening)).map gap.shift) ∧
    ∀ (blocks : List Block) (i : Nat) (keyword : LineKeyword),
      Block.keywordOfLine? blocks plain i = some keyword →
      let tag := KeywordTag.ofLine plain.document i keyword
      let moved := (Gap.number a).place i
      Block.keywordOfLine? blocks commented moved = some keyword ∧
      KeywordTag.ofLine commented.document moved keyword = tag.shift gap ∧
      ∀ count : Number,
        (∃ destination, ∀ origin wideOrigin,
          (tag.jump blocks plain count).Yields origin destination (destination.getD origin) ∧
          ((tag.shift gap).jump blocks commented count).Yields wideOrigin (destination.map gap.shift)
            ((destination.map gap.shift).getD wideOrigin)) ∨
        count.hops = none ∧ ∀ origin wideOrigin,
          (tag.jump blocks plain count).Endless origin ∧
          ((tag.shift gap).jump blocks commented count).Endless wideOrigin := by
  intro plain commented gap ends
  have interposes : plain.Interposes commented gap (Gap.number a) :=
    interposes_ofText language settings selecting a b line ends
  have apart : plain.Apart := apart_ofText _ language settings selecting
  refine ⟨fun o bracket unit code => ?_, fun blocks i keyword hk => ⟨?_, ?_, fun count => ?_⟩⟩
  · exact ⟨partner?_shift interposes code unit, bound?_shift interposes code unit apart⟩
  · rw [Block.keywordOfLine?_shift interposes, hk]
  · exact KeywordTag.ofLine_shift interposes i keyword
  · rcases Course.exists_course_shift interposes hk count with
      ⟨course, wideCourse, narrow, wide, shifted⟩ | ⟨unreachable, narrow, wide⟩
    · refine .inl ⟨course.destination? plain (.ofLine plain.document i keyword), fun origin wideOrigin => ?_⟩
      exact ⟨Block.yields_jump_of_course narrow origin,
        shifted ▸ Block.yields_jump_of_course wide wideOrigin⟩
    · exact .inr ⟨unreachable, fun origin wideOrigin =>
        ⟨Block.endless_jump_of_course narrow origin, Block.endless_jump_of_course wide wideOrigin⟩⟩

theorem comment_line_changes_no_match_of_misleading :
    let a := units "if (a\n"
    let b := units "  b)\nelse\nfi\n"
    let plain := ofText (.ofUnits (a ++ b)) "shellscript" {} false
    let tag : KeywordTag := ⟨⟨0, .opening⟩, 0, 0⟩
    ∃ line : CommentLine (Lexicon.ofLanguage "shellscript"), line.units = units "\t# fi ) \" else\n" ∧
      let commented := ofText (.ofUnits (a ++ line.units ++ b)) "shellscript" {} false
      plain.tags 5 = Style.code.tags ∧ partner? plain (facing 3 true) = some 9 ∧
        partner? commented (facing 3 true) = some 24 ∧
          (tag.jump Block.shell commented (.finite (2 : Nat))).Yields 0 (some 31) 31 := by
  intro a b plain tag
  let line : CommentLine (Lexicon.ofLanguage "shellscript") :=
    ⟨units "\t", units "#", units " fi ) \" else", List.all_eq_true.mp (by decide +kernel), by decide +kernel,
      by decide +kernel, by decide +kernel⟩
  have code : plain.tags 5 = Style.code.tags := by decide +kernel
  have ends : a = [] ∨ ∃ us, a = us ++ [lineFeed] ∧ plain.tags us.length = Style.code.tags :=
    .inr ⟨units "if (a", by decide +kernel, code⟩
  obtain ⟨brackets, keywords⟩ := comment_line_changes_no_match "shellscript" {} false a b line ends
  obtain ⟨matched, unit, inCode⟩ : partner? plain (facing 3 true) = some 9 ∧
      plain.unit? 3 = some (Bracket.unit ⟨.round, true⟩) ∧ plain.inCode 3 = true := by
    decide +kernel
  obtain ⟨moved, _⟩ := brackets 3 ⟨.round, true⟩ unit inCode
  obtain ⟨opens, first, found⟩ : Block.keywordOfLine? Block.shell plain 0 = some ⟨0, .opening⟩ ∧
      KeywordTag.ofLine plain.document 0 ⟨0, .opening⟩ = tag ∧
        ((tag.jump Block.shell plain (.finite (2 : Nat))).run ⟨0, []⟩).1 = .ok (some 16) := by
    decide +kernel
  obtain ⟨_, _, jumps⟩ := keywords Block.shell 0 ⟨0, .opening⟩ opens
  obtain ⟨destination, yields⟩ := (jumps (.finite (2 : Nat))).resolve_right fun endless =>
    absurd endless.1 (by decide +kernel)
  obtain ⟨jump, wide⟩ := yields 0 0
  have still : tag.shift (Gap.offsets a line.units) = tag := by decide +kernel
  rw [first] at jump wide
  rw [still] at wide
  obtain ⟨entries, run⟩ := jump []
  rw [run] at found
  obtain rfl := Except.ok.inj found
  refine ⟨line, by decide +kernel, code, matched, ?_, ?_⟩
  · have gap : (Gap.offsets a line.units).place 3 = 3 ∧ (Gap.offsets a line.units).place 9 = 24 := by
      decide +kernel
    change partner? _ (facing ((Gap.offsets a line.units).place 3 : Nat) true) =
      (partner? plain (facing 3 true)).map _
      at moved
    rw [matched, gap.1, Option.map_some, gap.2] at moved
    exact moved
  · have gap : (Gap.offsets a line.units).shift 16 = 31 := by decide +kernel
    rw [Option.map_some, gap] at wide
    exact wide

end Scene

end Counterpart
