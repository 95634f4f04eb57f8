import Counterpart.Proofs.Delimiter.Involution
import Counterpart.Proofs.Region.Between

namespace Counterpart

namespace Delimiter

open Counterpart.Bracket

def Joins (scene : Scene) (d : Delimiter) (o p : Nat) : Prop :=
  ∃ b : Bracket, scene.unit? d.offset = some b.unit ∧
    if b.opening then d.offset = o ∧ partner? scene d = some p else d.offset = p ∧ partner? scene d = some o

lemma Joins.ends {scene : Scene} (apart : scene.Apart) {d : Delimiter} {o p : Nat} {offset : Int}
    (h : d.Joins scene o p) (at? : at? scene offset = some d) :
    o < p ∧ p < scene.document.length ∧ (∃ b : Bracket, scene.unit? p = some b.unit) ∧
      (d = facing o true ∧ partner? scene d = some p ∨ d = facing p false ∧ partner? scene d = some o) := by
  obtain ⟨⟨s, opening⟩, hu, hd⟩ := h
  obtain rfl := offset_of_at? at?
  have hf := facing_of_at? at? hu
  have paired : Paired (counted scene (scene.zone d.offset) s) o p ∧
      (d = facing o true ∧ partner? scene d = some p ∨ d = facing p false ∧ partner? scene d = some o) := by
    cases opening with
    | true =>
      obtain ⟨ho, hp⟩ : d.offset = o ∧ partner? scene d = some p := hd
      rw [ho] at hf hu ⊢
      exact ⟨(partner?_opening apart hu).mp (hf ▸ hp), .inl ⟨hf, hp⟩⟩
    | false =>
      obtain ⟨ho, hp⟩ : d.offset = p ∧ partner? scene d = some o := hd
      rw [ho] at hf hu ⊢
      exact ⟨(partner?_closing apart hu).mp (hf ▸ hp), .inr ⟨hf, hp⟩⟩
  obtain ⟨hpair, hends⟩ := paired
  obtain ⟨t, _, ht, _⟩ := ends_of_paired hpair
  exact ⟨hpair.1, lt_length_of_paired hpair, ⟨_, ht⟩, hends⟩

end Delimiter

namespace Region

open Document

lemma yields_resolve_header {scene : Scene} {header : Header} {count : Number} {inner : Bool} {origin : Int}
    (tag : Header.at? scene origin = some header)
    (seen : scene.isSimple = false ∨ Delimiter.at? scene origin = some header.delimiter) :
    (resolve scene [Rule.delimiters] count inner).Yields origin
      ((Delimiter.destination? { scene with selecting := true } header.delimiter).map
        (ofEnds scene inner header.start)) origin :=
  yields_resolve (Item.yields_operate_header tag seen)

variable {doc : Document}

lemma between_pair {start o p : Nat} (hop : o < p) (hp : p < doc.length)
    (h : start = o ∨ doc.lineAt start ≤ doc.lineAt o ∧ doc.lineAt o < doc.lineAt p) :
    ∃ first last : Int, between doc false start (p + 1) = ⟨first, last, true⟩ ∧ first ≤ last ∧
      last ≤ p ∧ (o < first ↔ doc.lineAt o = doc.lineAt start) := by
  by_cases hl : doc.lineAt start < doc.lineAt p
  · obtain ⟨last, hb, hf, _, hle⟩ := between_lines false hp hl
    refine ⟨_, last, hb, hf, hle rfl, ?_⟩
    have hlast := doc.lineAt_lt_lineCount p
    have hn : doc.startOfLine (doc.lineAt start + 1) ≤ o ↔ doc.lineAt start + 1 ≤ doc.lineAt o :=
      startOfLine_le_iff (by omega) (by omega)
    rcases h with rfl | h <;> omega
  · rcases h with rfl | h
    · have hm : doc.lineAt start ≤ doc.lineAt p := lineAt_mono (by omega)
      exact ⟨_, _, between_sameLine false (Nat.le_of_lt hop) hp (by omega), by omega, by omega, by omega⟩
    · omega

lemma inner_of_tag {scene : Scene} (apart : scene.Apart)
    (drops : scene.settings.innerKeepsLastLine.contains scene.document.language = false) {cursor : Int}
    {header : Header} {o p : Nat} (tag : Header.at? scene cursor = some header)
    (joins : header.delimiter.Joins scene o p) :
    ∃ first last : Int,
      (Delimiter.destination? { scene with selecting := true } header.delimiter).map
        (ofEnds scene true header.start) = some ⟨first, last, true⟩ ∧
      first ≤ last ∧ last ≤ p ∧
      (o < first ↔ scene.document.lineAt header.delimiter.offset = scene.document.lineAt cursor) := by
  obtain ⟨start, d⟩ := header
  rcases Header.at?_cases tag with ⟨hd, hs⟩ | ⟨_, hs, brace, hb, hd⟩
  · -- Under the cursor: from either end, the region is that of the opening bracket.
    obtain rfl : start = d.start := hs
    obtain ⟨hop, hp, _, hends⟩ := joins.ends apart hd
    obtain ⟨first, last, hr, hfirst, hlast, ho⟩ := between_pair hop hp (.inl rfl)
    refine ⟨first, last, ?_, hfirst, hlast, ?_⟩
    · have hinner := ofEnds_inner drops (show (o : Int) ≤ p + 1 by omega)
      rcases hends with ⟨rfl, hq⟩ | ⟨rfl, hq⟩
      · rw [Delimiter.destination?_extending hq, Option.map_some, ← hr, ← hinner]
        rfl
      · rw [Delimiter.destination?_extending hq, Option.map_some, ← hr, ← hinner, ofEnds_comm]
        rfl
    · rw [ho, Delimiter.offset_of_at? hd]
      exact iff_of_true rfl rfl
  · -- A brace of the cursor's line closes further down, so whole lines are left out from the cursor's line on.
    obtain rfl : start = scene.document.firstNonBlank cursor := hs
    obtain ⟨hcurly, habove, hbelow⟩ := Header.lineAt_brace? hb
    have hf := Delimiter.facing_of_at? hd hcurly
    obtain ⟨hop, hp, ⟨b, hu⟩, ⟨he, hq⟩ | ⟨he, _⟩⟩ := joins.ends apart hd
    · have hob : brace = o := Int.ofNat.inj (congrArg Delimiter.offset (hf.symm.trans he))
      subst hob
      have hstart := lineAt_contentOfLine (scene.document.lineAt_lt_lineCount cursor)
      have hline := hbelow p b hop hu
      obtain ⟨first, last, hr, hfirst, hlast, ho⟩ :=
        between_pair hop hp (.inr ⟨hstart.symm ▸ habove, hline⟩)
      refine ⟨first, last, ?_, hfirst, hlast, ?_⟩
      · have hle := lt_of_lineAt_lt (Nat.lt_of_le_of_lt (hstart.symm ▸ habove) hline)
        rw [Delimiter.destination?_extending hq, Option.map_some, ← hr, he, ← ofEnds_inner drops (by omega)]
        rfl
      · rw [ho, hstart, he]
        rfl
    · have hforward : true = false := congrArg Delimiter.forward (hf.symm.trans he)
      contradiction

/-- The inner region of a pair ends before the closing bracket, but begins behind the opening one just when that
stands on the cursor's line. -/
theorem inner_keeps_brackets (text : Text) (language : String) (settings : Settings) (selecting : Bool)
    (count : Number) (cursor : Int) (header : Header) (o p : Nat)
    (drops : settings.innerKeepsLastLine.contains language = false) :
    let scene := Scene.ofText text language settings selecting
    let line := scene.document.lineAt
    (Header.inspect scene).Yields cursor (some header) cursor → header.delimiter.Joins scene o p →
    ∃ found, (resolve scene [Rule.delimiters] count true).Yields cursor found cursor ∧
      (found = none ↔ scene.isSimple = true ∧ Delimiter.at? scene cursor = none) ∧
      ∀ region ∈ found, region.start ≤ region.stop ∧ region.stop ≤ p ∧
        (o < region.start ↔ line header.delimiter.offset = line cursor) := by
  intro scene line tagged joins
  have apart : scene.Apart := Scene.apart_ofText text language settings selecting
  have tag : Header.at? scene cursor = some header := ((Header.yields_inspect scene cursor).unique tagged).1
  obtain ⟨first, last, hr, hfirst, hlast, ho⟩ := inner_of_tag apart drops tag joins
  by_cases unseen : scene.isSimple = true ∧ Delimiter.at? scene cursor = none
  · refine ⟨none, ?_, iff_of_true rfl unseen, fun region h => by contradiction⟩
    have asks := @Item.yields_askDelimiter_none { scene with selecting := true } cursor unseen.2
    exact yields_resolve (Item.yields_operate_of_simple unseen.1 asks)
  · have seen : scene.isSimple = false ∨ Delimiter.at? scene cursor = some header.delimiter := by
      rcases Header.at?_cases tag with ⟨hd, _⟩ | ⟨hd, _⟩
      · exact .inr hd
      · exact .inl (Bool.eq_false_iff.mpr fun simple => unseen ⟨simple, hd⟩)
    refine ⟨some ⟨first, last, true⟩, ?_, iff_of_false (by simp) unseen, ?_⟩
    · rw [← hr]
      exact yields_resolve_header tag seen
    · intro region hregion
      obtain rfl := Option.mem_some.mp hregion
      exact ⟨hfirst, hlast, ho⟩

theorem inner_keeps_brackets_of_function :
    let scene := Scene.ofText (.ofString "f() \x7b\r\n  g();\r\n\x7d") "typescript" {} false
    (Header.inspect scene).Yields 0 (some ⟨0, .facing 4 true⟩) 0 ∧
      (Delimiter.facing 4 true).Joins scene 4 15 ∧
      ∃ region : Region, (resolve scene [Rule.delimiters] 1 true).Yields 0 (some region) 0 ∧
        4 < region.start ∧ region.start ≤ region.stop ∧ region.stop ≤ 15 := by
  intro scene
  obtain ⟨tag, opens, closes, hline⟩ : Header.at? scene 0 = some ⟨0, .facing 4 true⟩ ∧
      scene.unit? 4 = some (Bracket.unit ⟨.curly, true⟩) ∧
        Delimiter.partner? scene (.facing 4 true) = some 15 ∧
          scene.document.lineAt 4 = scene.document.lineAt 0 := by
    decide +kernel
  have tagged : (Header.inspect scene).Yields 0 (some ⟨0, .facing 4 true⟩) 0 :=
    tag ▸ Header.yields_inspect scene 0
  have joins : (Delimiter.facing 4 true).Joins scene 4 15 := ⟨⟨.curly, true⟩, opens, rfl, closes⟩
  obtain ⟨found, hy, hn, hr⟩ :=
    inner_keeps_brackets _ "typescript" {} false 1 0 _ 4 15 (by decide) tagged joins
  cases found with
  | none => exact absurd (hn.mp rfl).1 (by decide +kernel)
  | some region =>
    obtain ⟨hfirst, hlast, ho⟩ := hr region rfl
    exact ⟨tagged, joins, region, hy, ho.mpr hline, hfirst, hlast⟩

theorem inner_takes_lone_brace :
    let scene := Scene.ofText (.ofString "if (x)\n\x7b\n  y;\n\x7d") "typescript" {} false
    let region : Region := ⟨7, 13, true⟩
    (Header.inspect scene).Yields 0 (some ⟨0, .facing 7 true⟩) 0 ∧
      (Delimiter.facing 7 true).Joins scene 7 14 ∧
      (resolve scene (Rulebook.standard.lookup "typescript") 1 true).Yields 0 (some region) 0 ∧
        ¬ 7 < region.start := by
  intro scene region
  have rules : Rulebook.standard.lookup "typescript" = [Rule.delimiters] := rfl
  obtain ⟨tag, hr, opens, closes⟩ : Header.at? scene 0 = some ⟨0, .facing 7 true⟩ ∧
      (Delimiter.destination? { scene with selecting := true } (.facing 7 true)).map (ofEnds scene true 0) =
        some region ∧
      scene.unit? 7 = some (Bracket.unit ⟨.curly, true⟩) ∧
        Delimiter.partner? scene (.facing 7 true) = some 14 := by
    decide +kernel
  refine ⟨tag ▸ Header.yields_inspect scene 0, ⟨⟨.curly, true⟩, opens, rfl, closes⟩, ?_, by decide⟩
  rw [rules, ← hr]
  exact yields_resolve_header tag (.inl (by decide +kernel))

end Region

end Counterpart
