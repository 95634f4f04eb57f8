import Counterpart.Proofs.Token.Boundary

namespace Counterpart

namespace Lexicon

def openers (lex : Lexicon) : List Units :=
  lex.lineComments ++ lex.blockComments.map Prod.fst ++ lex.quotes ++ lex.charQuote.toList

variable {lex : Lexicon}

lemma unopened_of_heads {opens : UInt16 → Bool} (heads : ∀ word ∈ lex.openers, word.head?.any opens = true)
    {u : UInt16} (other : opens u = false) (us : Units) : ∀ word ∈ lex.openers, ¬ word <+: u :: us := by
  intro word hw begins
  have head := heads word hw
  cases word with
  | nil => contradiction
  | cons v rest =>
    obtain rfl := (List.cons_prefix_cons.mp begins).1
    rw [List.head?_cons, Option.any_some, other] at head
    contradiction

end Lexicon

namespace Token

lemma opener_of_blockCommentOf? {us : Units} {pairs : List (Units × Units)} {token : Token}
    (h : blockCommentOf? us pairs = some token) : ∃ pair ∈ pairs, pair.1 <+: us := by
  induction pairs with
  | nil => contradiction
  | cons pair pairs ih =>
    simp only [blockCommentOf?] at h
    split at h
    · next begins =>
      exact ⟨pair, List.mem_cons_self, List.isPrefixOf_iff_prefix.mp (Bool.and_eq_true_iff.mp begins).2⟩
    · obtain ⟨other, hm, hp⟩ := ih h
      exact ⟨other, List.mem_cons_of_mem _ hm, hp⟩

lemma marker_of_lineCommentOf? {us : Units} {markers : List Units} {token : Token}
    (h : lineCommentOf? us markers = some token) : ∃ marker ∈ markers, marker <+: us := by
  induction markers with
  | nil => contradiction
  | cons marker markers ih =>
    simp only [lineCommentOf?] at h
    split at h
    · next begins =>
      exact ⟨marker, List.mem_cons_self, List.isPrefixOf_iff_prefix.mp (Bool.and_eq_true_iff.mp begins).2⟩
    · obtain ⟨other, hm, hp⟩ := ih h
      exact ⟨other, List.mem_cons_of_mem _ hm, hp⟩

variable {lex : Lexicon}

lemma next_of_unopened {u : UInt16} {us : Units} (unopened : ∀ word ∈ lex.openers, ¬ word <+: u :: us) :
    next lex u us = plain := by
  simp only [Lexicon.openers, List.mem_append] at unopened
  rcases next_cases lex u us with hb | hl | ⟨hq, _⟩ | ⟨hc, _⟩ | hp
  · obtain ⟨pair, hm, opens⟩ := opener_of_blockCommentOf? hb
    exact absurd opens (unopened _ (.inl (.inl (.inr (List.mem_map_of_mem hm)))))
  · obtain ⟨marker, hm, opens⟩ := marker_of_lineCommentOf? hl
    exact absurd opens (unopened _ (.inl (.inl (.inl hm))))
  · exact absurd (List.prefix_append [u] us) (unopened _ (.inl (.inr (List.contains_iff_mem.mp hq))))
  · have hm : [u] ∈ lex.charQuote.toList := by
      rw [eq_of_beq hc]
      exact List.mem_singleton_self _
    exact absurd (List.prefix_append [u] us) (unopened _ (.inr hm))
  · exact hp

lemma ofUnits_plain {u : UInt16} {us : Units} (h : next lex u us = plain) :
    ofUnits lex (u :: us) = plain :: ofUnits lex us := by
  rw [ofUnits_cons, h]
  rfl

lemma ofUnits_unopened {opens : UInt16 → Bool} (heads : ∀ word ∈ lex.openers, word.head?.any opens = true)
    {us : Units} (others : ∀ u ∈ us, opens u = false) (rest : Units) :
    ofUnits lex (us ++ rest) = List.replicate us.length plain ++ ofUnits lex rest := by
  induction us with
  | nil => rfl
  | cons u us ih =>
    obtain ⟨hu, hr⟩ := List.forall_mem_cons.mp others
    have unopened := Lexicon.unopened_of_heads heads hu (us ++ rest)
    rw [List.cons_append, ofUnits_plain (next_of_unopened unopened), ih hr, List.length_cons, List.replicate_succ,
      List.cons_append]

end Token

end Counterpart
