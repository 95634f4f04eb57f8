import Counterpart.Proofs.Token.Feed
import Counterpart.Proofs.Token.Literal
import Counterpart.Proofs.Token.Plain

namespace Counterpart

namespace Lexicon

def Unindented (lex : Lexicon) : Prop := ∀ word ∈ lex.openers, word.head?.any (fun u => !isIndent u) = true

instance (lex : Lexicon) : Decidable lex.Unindented :=
  inferInstanceAs (Decidable (∀ word ∈ lex.openers, word.head?.any (fun u => !isIndent u) = true))

lemma unindented_ofLanguage (language : String) : (ofLanguage language).Unindented :=
  ofLanguage_of_builtin (motive := Unindented) (by decide) (by decide) language

namespace Unindented

variable {lex : Lexicon} (h : lex.Unindented) {word : Units} (hw : word ∈ lex.openers)
include h hw

lemma ne_nil : word ≠ [] := by
  rintro rfl
  exact absurd (h [] hw) (by simp)

end Unindented

end Lexicon

namespace Token

open Counterpart.Units

lemma lineCommentOf?_of_begins {us marker : Units} {markers : List Units} (hm : marker ∈ markers)
    (solid : marker ≠ []) (begins : marker <+: us) : ∃ read, lineCommentOf? us markers =
      some (lineComment read (max 1 (us.takeWhile (· != lineFeed)).length)) := by
  induction markers with
  | nil => contradiction
  | cons first markers ih =>
    rw [lineCommentOf?]
    split
    · exact ⟨_, rfl⟩
    · next other =>
      rcases List.mem_cons.mp hm with rfl | hm
      · refine absurd ?_ other
        rw [List.isPrefixOf_iff_prefix.mpr begins, Bool.and_true, Bool.not_eq_true', List.isEmpty_eq_false_iff]
        exact solid
      · exact ih hm

variable {lex : Lexicon}

lemma ofUnits_indent (unindented : lex.Unindented) {indent : Units} (blank : ∀ u ∈ indent, isIndent u = true)
    (us : Units) : ofUnits lex (indent ++ us) = List.replicate indent.length plain ++ ofUnits lex us :=
  ofUnits_unopened unindented (fun u hu => by rw [blank u hu]; rfl) us

end Token

structure CommentLine (lex : Lexicon) where
  indent : Units
  marker : Units
  text : Units
  blank : ∀ u ∈ indent, isIndent u = true
  marked : marker ∈ lex.lineComments
  inline : lineFeed ∉ text
  alone : ∀ pair ∈ lex.blockComments, ¬ pair.1 <+: marker ++ text

namespace CommentLine

open Token Counterpart.Units

variable {lex : Lexicon} (line : CommentLine lex)

def comment : Units := line.marker ++ line.text

def units : Units := line.indent ++ line.comment ++ [lineFeed]

lemma length_units : line.units.length = (line.indent ++ line.comment).length + 1 := by
  rw [units, List.length_append, List.length_singleton]

lemma mem_openers : line.marker ∈ lex.openers :=
  List.mem_append_left _ (List.mem_append_left _ (List.mem_append_left _ line.marked))

lemma comment_pos (unindented : lex.Unindented) : 0 < line.comment.length := by
  rw [comment, List.length_append]
  exact Nat.add_pos_left (List.length_pos_iff.mpr (unindented.ne_nil line.mem_openers)) _

lemma exists_comment (unindented : lex.Unindented) :
    ∃ u rest, line.comment = u :: rest ∧ ¬ isIndent u = true := by
  have solid := unindented _ line.mem_openers
  obtain ⟨u, rest, hm⟩ := List.exists_cons_of_ne_nil (unindented.ne_nil line.mem_openers)
  refine ⟨u, rest ++ line.text, by rw [comment, hm, List.cons_append], ?_⟩
  simpa [hm] using solid

lemma unit_cases {k : Nat} (hk : k < line.units.length) :
    (∃ u, line.units[k]? = some u ∧ (isIndent u = true ∨ u = lineFeed)) ∨
      line.indent.length ≤ k ∧ k < (line.indent ++ line.comment).length := by
  rcases Nat.lt_or_ge k line.indent.length with ahead | behind
  · refine .inl ⟨line.indent[k], ?_, .inl (line.blank _ (List.getElem_mem ahead))⟩
    rw [units, List.append_assoc, List.getElem?_append_left ahead, List.getElem?_eq_getElem ahead]
  · by_cases last : k < (line.indent ++ line.comment).length
    · exact .inr ⟨behind, last⟩
    · obtain rfl : k = (line.indent ++ line.comment).length := by
        rw [length_units] at hk
        omega
      exact .inl ⟨lineFeed, by rw [units, List.getElem?_concat_length], .inr rfl⟩

section

variable (unbroken : lex.Unbroken)
include unbroken

lemma inline_comment : lineFeed ∉ line.comment := by
  rw [comment, List.mem_append, not_or]
  exact ⟨(unbroken.lineComments _ line.marked).1, line.inline⟩

lemma inline_line : lineFeed ∉ line.indent ++ line.comment := by
  rw [List.mem_append, not_or]
  refine ⟨fun hm => absurd (line.blank _ hm) (by decide), line.inline_comment unbroken⟩

variable (unindented : lex.Unindented)
include unindented

lemma ofUnits_comment (b : Units) : ∃ read, ofUnits lex (line.comment ++ lineFeed :: b) =
    lineComment read line.comment.length :: plain :: ofUnits lex b := by
  have hpos := line.comment_pos unindented
  have whole : (line.comment ++ lineFeed :: b).takeWhile (· != lineFeed) = line.comment := by
    rw [takeWhile_line (line.inline_comment unbroken), List.takeWhile_cons_of_neg (by simp), List.append_nil]
  have uncommented : blockCommentOf? (line.comment ++ lineFeed :: b) lex.blockComments = none := by
    rw [Option.eq_none_iff_forall_ne_some]
    intro token hb
    obtain ⟨pair, hm, opens⟩ := opener_of_blockCommentOf? hb
    rw [← List.isPrefixOf_iff_prefix, isPrefixOf_feed (unbroken.blockComments pair hm).1.1,
      List.isPrefixOf_iff_prefix] at opens
    exact line.alone pair hm opens
  have begins : line.marker <+: line.comment ++ lineFeed :: b := by
    rw [comment, List.append_assoc]
    exact List.prefix_append _ _
  obtain ⟨read, commented⟩ := lineCommentOf?_of_begins line.marked (unindented.ne_nil line.mem_openers) begins
  rw [whole, Nat.max_eq_right hpos] at commented
  refine ⟨read, ?_⟩
  obtain ⟨u, rest, hu⟩ := List.exists_cons_of_ne_nil (List.ne_nil_of_length_pos hpos)
  have token : next lex u (rest ++ lineFeed :: b) = lineComment read line.comment.length := by
    rw [next, ← List.cons_append, ← hu, uncommented, commented]
  have behind : (u :: (rest ++ lineFeed :: b)).drop line.comment.length = lineFeed :: b := by
    rw [← List.cons_append, ← hu, List.drop_left]
  rw [hu, List.cons_append, ofUnits_cons, token, ← hu]
  rw [Token.length, behind, ofUnits_plain (next_break unbroken (.inl rfl) b)]

lemma ofUnits_line (b : Units) : ∃ read, ofUnits lex (line.units ++ b) =
    List.replicate line.indent.length plain ++ lineComment read line.comment.length :: plain :: ofUnits lex b := by
  obtain ⟨read, tokens⟩ := line.ofUnits_comment unbroken unindented b
  refine ⟨read, ?_⟩
  rw [units, List.append_assoc, List.append_assoc, ofUnits_indent unindented line.blank,
    List.singleton_append, tokens]

lemma stylesOf_line (b : Units) : ∃ styles : List Style, styles.length = line.units.length ∧
    (∀ k, line.indent.length ≤ k → k < (line.indent ++ line.comment).length →
      ∃ style, styles[k]? = some style ∧ style.tags.comment = true) ∧
    stylesOf lex (line.units ++ b) = styles ++ stylesOf lex b := by
  obtain ⟨read, tokens⟩ := line.ofUnits_line unbroken unindented b
  let comment := (lineComment read line.comment.length).styles .code
  have hl : comment.length = line.comment.length := Token.length_styles _ _
  refine ⟨List.replicate line.indent.length .code ++ (comment ++ [.code]), ?_, fun k first last => ?_, ?_⟩
  · rw [length_units, List.length_append, List.length_append, List.length_replicate, hl, List.length_append]
    rfl
  · rw [List.length_append] at last
    have inside : k - line.indent.length < comment.length := by omega
    rw [List.getElem?_append_right (by rwa [List.length_replicate]), List.length_replicate,
      List.getElem?_append_left inside, List.getElem?_eq_getElem inside]
    refine ⟨_, rfl, ?_⟩
    have hm := List.getElem_mem inside
    generalize comment[k - line.indent.length] = style at hm
    simp only [comment, Token.styles, List.mem_append, List.mem_replicate] at hm
    rcases hm with ⟨_, rfl⟩ | ⟨_, rfl⟩ <;> rfl
  · rw [stylesOf, tokens, List.flatMap_append, List.flatMap_replicate]
    simp [Token.styles, stylesOf, comment]

end

end CommentLine

end Counterpart
