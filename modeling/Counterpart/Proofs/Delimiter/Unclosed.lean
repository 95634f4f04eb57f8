import Counterpart.Proofs.Delimiter.StringRun
import Counterpart.Proofs.Token.Terminator

namespace Counterpart

namespace Delimiter

section

variable {text : Text} {language : String} {settings : Settings} {selecting : Bool}

lemma exists_run_to_end {x e : Nat} (inside : x < e)
    (string : ∀ o : Nat, x ≤ o → o < e → (Scene.ofText text language settings selecting).inString o = true)
    (behind : (Scene.ofText text language settings selecting).inString e = false) :
    ∃ r, StringRun (Scene.ofText text language settings selecting) r e ∧ r ≤ x := by
  obtain ⟨r, stop, run, hr, hstop⟩ :=
    exists_stringRun text language settings selecting (string x (Nat.le_refl x) inside)
  have hle : ¬ e < stop := by
    intro hlt
    rw [run.string e (by omega) (by omega)] at behind
    contradiction
  have hge : ¬ stop < e := by
    intro hlt
    have hs := string stop (by omega) hlt
    rw [run.behind] at hs
    contradiction
  obtain rfl : stop = e := by omega
  exact ⟨r, run, hr⟩

lemma exists_run_of_unclosed {before after : List Token} {n : Nat}
    (tokens : Token.ofUnits (Lexicon.ofLanguage language) text.toUnits = before ++ .string n :: after)
    (unclosed : ¬ Token.Closed (Lexicon.ofLanguage language) text (Token.extent before)
      (Token.extent before + n)) :
    ∃ r, StringRun (Scene.ofText text language settings selecting) r (Token.extent before + n) ∧
      r ≤ Token.extent before := by
  have hn : 0 < n := Token.length_pos_of_ofUnits tokens
  obtain ⟨quote, rest, m, hd, _, rfl, ending⟩ := Token.exists_ending tokens
  apply exists_run_to_end
  case inside => omega
  case string =>
    intro o hs he
    obtain ⟨k, rfl⟩ := Nat.exists_eq_add_of_le hs
    exact Scene.inString_in_token tokens settings selecting (Nat.lt_of_add_lt_add_left he)
  case behind =>
    -- What cuts the string short, the line feed or the end of the text, begins no other literal.
    apply Scene.inString_behind_of_no_glyph tokens
    intro u hu
    rcases (Token.closed_or_cut hd ending).resolve_left unclosed with hl | ⟨_, feed, _⟩
    · obtain ⟨hlt, _⟩ := Array.getElem?_eq_some_iff.mp hu
      exact (Nat.lt_irrefl _ (hl ▸ hlt)).elim
    · obtain rfl : u = lineFeed := Option.some.inj (hu.symm.trans feed)
      rfl

end

/-- From the opening quote of a string that is not closed, a jump finds nothing unless a quote of that kind
ends the run of string places all the same: an escaped one at the end of the string, or, if the string is the
quote alone, the one that begins the literals directly before it, or itself where there are none. -/
theorem unclosed_string_jumps_to_equal_quote (text : Text) (language : String) (settings : Settings)
    (unguarded : settings.lineEndGuardLanguages.contains language = false) (before after : List Token) (n : Nat)
    (tokens : Token.ofUnits (Lexicon.ofLanguage language) text.toUnits = before ++ .string n :: after)
    (unclosed : ¬ Token.Closed (Lexicon.ofLanguage language) text (Token.extent before)
      (Token.extent before + n)) :
    let scene := Scene.ofText text language settings false
    let s := Token.extent before
    let e := Token.extent before + n
    ∃ r, StringRun scene r e ∧ r ≤ s ∧
      let other := if n = 1 then r else e - 1
      (text.units[other]? ≠ text.units[s]? → Returns scene s none) ∧
        (text.units[other]? = text.units[s]? → Returns scene s (some (other : Int))) := by
  intro scene s e
  have hg : ∀ offset, scene.isGuarded offset = false := Scene.isGuarded_eq_false unguarded
  have alike : StringsAlike scene := stringsAlike_ofText text language settings false
  have hn : 0 < n := Token.length_pos_of_ofUnits tokens
  obtain ⟨r, run, hr⟩ : ∃ r, StringRun scene r e ∧ r ≤ s := exists_run_of_unclosed tokens unclosed
  obtain ⟨quote, opens, glyph⟩ := Token.quote_of_ofUnits (Lexicon.quotesGlyphs_ofLanguage language) tokens rfl
  rw [Text.toUnits, Array.getElem?_toList] at opens
  refine ⟨r, run, hr, ?_⟩
  intro other
  have returns : Returns scene s (if text.units[other]? = some quote then some (other : Int) else none) := by
    by_cases alone : n = 1
    · have hother : other = r := if_pos alone
      rw [hother]
      exact run.returns_backward hr (by omega) rfl hg alike opens glyph (by omega)
    · have hother : other = e - 1 := if_neg alone
      rw [hother]
      exact run.returns_forward hr (by omega) rfl hg alike opens glyph (by omega)
  rw [opens]
  constructor
  · intro hne
    rwa [if_neg hne] at returns
  · intro heq
    rwa [if_pos heq] at returns

theorem unclosed_string_jumps_to_equal_quote_nowhere :
    let text := Text.ofString "x = 'ab\ny = 'c';"
    let scene := Scene.ofText text "typescript" {} false
    let before := [Token.plain, .plain, .plain, .plain]
    let after := [Token.plain, .plain, .plain, .plain, .plain, .string 3, .plain]
    Token.ofUnits (Lexicon.ofLanguage "typescript") text.toUnits = before ++ .string 3 :: after ∧
      ¬ Token.Closed (Lexicon.ofLanguage "typescript") text 4 7 ∧ Returns scene 4 none := by
  intro text scene before after
  obtain ⟨tokens, unclosed, other⟩ :
      Token.ofUnits (Lexicon.ofLanguage "typescript") text.toUnits = before ++ .string 3 :: after ∧
        ¬ Token.Closed (Lexicon.ofLanguage "typescript") text 4 7 ∧ text.units[6]? ≠ text.units[4]? := by
    decide +kernel
  obtain ⟨_, _, _, nowhere, _⟩ :=
    unclosed_string_jumps_to_equal_quote text "typescript" {} (by decide) before after 3 tokens unclosed
  exact ⟨tokens, unclosed, nowhere other⟩

theorem escaped_quote_taken_for_end :
    let text := Text.ofString "x = 'ab\\'\ny = 1"
    let scene := Scene.ofText text "typescript" {} false
    Token.ofUnits (Lexicon.ofLanguage "typescript") text.toUnits =
        [.plain, .plain, .plain, .plain, .string 5, .plain, .plain, .plain, .plain, .plain, .plain] ∧
      text.units[9]? = some lineFeed ∧ ¬ Token.Closed (Lexicon.ofLanguage "typescript") text 4 9 ∧
        Returns scene 4 (some 8) ∧ ¬ Returns scene 4 none := by
  intro text scene
  rw [returns_iff, returns_iff]
  decide +kernel

end Delimiter

end Counterpart
