import Counterpart.Proofs.Motion
import Counterpart.Proofs.Region.Ends

namespace Counterpart

namespace Header

variable {scene : Scene} {cursor other : Int}

lemma at?_of_line (unguarded : scene.isGuarded cursor = false) (untagged : Delimiter.at? scene cursor = none) :
    at? scene cursor = (brace? scene cursor).bind fun brace =>
      (Delimiter.at? scene brace).map fun d => ⟨scene.document.firstNonBlank cursor, d⟩ := by
  rw [at?, unguarded, if_neg Bool.false_ne_true, untagged]

lemma brace?_congr (line : scene.document.lineAt other = scene.document.lineAt cursor) :
    brace? scene other = brace? scene cursor := by
  have last : scene.document.lastNonBlank? other = scene.document.lastNonBlank? cursor := by
    simp only [Document.lastNonBlank?, Document.lineStart, Document.lineEnd, line]
  have next : scene.document.nextLineStart other = scene.document.nextLineStart cursor := by
    simp only [Document.nextLineStart_eq, line]
  simp only [brace?, last, next]

def acting? (scene : Scene) (cursor : Int) : Option Header := if scene.isSimple then none else at? scene cursor

lemma acting?_congr (unguarded : ∀ offset, scene.isGuarded offset = false)
    (untagged : Delimiter.at? scene cursor = none) (untaggedOther : Delimiter.at? scene other = none)
    (line : scene.document.lineAt other = scene.document.lineAt cursor) :
    acting? scene other = acting? scene cursor := by
  rw [acting?, at?_of_line (unguarded other) untaggedOther, brace?_congr line, Document.firstNonBlank, line,
    acting?, at?_of_line (unguarded cursor) untagged, Document.firstNonBlank]

lemma of_acting? {header : Header} (h : acting? scene cursor = some header) :
    scene.isSimple = false ∧ at? scene cursor = some header := by
  rw [acting?] at h
  split at h
  · contradiction
  · next notSimple => exact ⟨Bool.eq_false_iff.mpr notSimple, h⟩

lemma yields_operate_unled (h : acting? scene cursor = none) (untagged : Delimiter.at? scene cursor = none)
    (count : Number) : (Item.operate scene [Rule.delimiters] count pure).Yields cursor (cursor, none) cursor := by
  refine Item.yields_operate_untagged (fun notSimple => ?_) untagged
  rw [acting?, notSimple, if_neg Bool.false_ne_true] at h
  exact List.forall_mem_singleton.mpr (h ▸ yields_inspect scene cursor)

end Header

namespace Region

open Document

variable {scene : Scene} {cursor : Int}

lemma yields_resolve_line (untagged : Delimiter.at? scene cursor = none) (count : Number) (inner : Bool) :
    (resolve scene [Rule.delimiters] count inner).Yields cursor ((Header.acting? scene cursor).bind fun header =>
      (Delimiter.destination? { scene with selecting := true } header.delimiter).map
        (ofEnds scene inner header.start)) cursor := by
  let extending : Scene := { scene with selecting := true }
  cases h : Header.acting? scene cursor with
  | none => exact yields_resolve (@Header.yields_operate_unled extending cursor h untagged count)
  | some header =>
    obtain ⟨notSimple, tag⟩ := Header.of_acting? h
    exact yields_resolve (@Item.yields_operate_header extending cursor header count tag (.inl notSimple))

variable {doc : Document}

lemma outer_start_mono {a b : Nat} (stop : Int) (blank : doc.onlyBlanksBefore a = true)
    (line : doc.lineAt a ≤ doc.lineAt b) (hb : b ≤ doc.length) :
    (outer doc a stop).start ≤ (outer doc b stop).start := by
  have hline := doc.lineAt_lt_lineCount a
  simp only [outer, blank, if_true]
  split
  · have inside := doc.startOfLine_le_length (doc.lineAt b)
    have first := startOfLine_le_iff hline inside
    rw [lineAt_startOfLine (doc.lineAt_lt_lineCount b)] at first
    exact Int.ofNat_le.mpr (first.mpr line)
  · exact Int.ofNat_le.mpr ((startOfLine_le_iff hline hb).mpr line)

lemma ofEnds_header {brace stop : Nat} (h : Header.brace? scene cursor = some brace) (below : brace ≤ stop) :
    let header := ofEnds scene false (scene.document.firstNonBlank cursor) stop
    let own := ofEnds scene false brace stop
    header.start ≤ own.start ∧ own.stop = header.stop := by
  intro header own
  have heads := Header.heads_of_brace? h
  have hline := scene.document.lineAt_lt_lineCount cursor
  have first : scene.document.lineAt (scene.document.firstNonBlank cursor) = scene.document.lineAt cursor :=
    lineAt_contentOfLine hline
  have hbrace : header = outer scene.document (scene.document.firstNonBlank cursor) stop :=
    ofEnds_outer (Int.ofNat_le.mpr (Nat.le_trans (Header.firstNonBlank_le_brace? h) below))
  have hown : own = outer scene.document brace stop := ofEnds_outer (Int.ofNat_le.mpr below)
  rw [hbrace, hown]
  refine ⟨outer_start_mono _ (onlyBlanksBefore_contentOfLine hline) ?_ ?_, rfl⟩
  · rw [first]
    exact heads.lineAt_le
  · exact Nat.le_of_lt (lt_length_of_unit heads.opens)

end Region

namespace Motion

variable {scene : Scene} {cursor : Int}

lemma yields_jump_line (untagged : Delimiter.at? scene cursor = none) :
    let destination := (Header.acting? scene cursor).bind fun header =>
      Delimiter.destination? scene header.delimiter
    (jump scene [Rule.delimiters] none).Yields cursor destination (destination.getD cursor) := by
  intro destination
  cases h : Header.acting? scene cursor with
  | none =>
    have operates := Header.yields_operate_unled h untagged 1
    have jumps := @yields_jump scene [Rule.delimiters] none cursor _ _ rfl operates
    simpa [destination, h] using jumps
  | some header =>
    obtain ⟨notSimple, tag⟩ := Header.of_acting? h
    have operates := @Item.yields_operate_header scene cursor header 1 tag (.inl notSimple)
    have jumps := @yields_jump scene [Rule.delimiters] none cursor _ _ rfl operates
    simpa [destination, h] using jumps

/-- Wherever the cursor stands on a line, off the delimiters, it acts for one and the same brace, which opens
the block of that line: a jump leads where it leads from the brace, and the outer region is that of the brace,
extended to the line. -/
theorem header_line_acts_for_brace (text : Text) (language : String) (settings : Settings) (selecting : Bool)
    (unguarded : settings.lineEndGuardLanguages.contains language = false) (cursor : Int) :
    let scene := Scene.ofText text language settings selecting
    let line := scene.document.lineAt
    let jumps := jump scene [Rule.delimiters] none
    let resolves := Region.resolve scene [Rule.delimiters]
    Delimiter.at? scene cursor = none →
    (∀ other, line other = line cursor → Delimiter.at? scene other = none →
      (∃ destination : Option Int, jumps.Yields cursor destination (destination.getD cursor) ∧
        jumps.Yields other destination (destination.getD other)) ∧
      ∀ count inner, ∃ region, (resolves count inner).Yields cursor region cursor ∧
        (resolves count inner).Yields other region other) ∧
    ∀ destination landing, jumps.Yields cursor (some destination) landing →
      ∃ brace : Nat, Header.Heads scene (line cursor) brace ∧
        jumps.Yields brace (some destination) destination ∧
        ∀ count, ∃ header own : Region, (resolves count false).Yields cursor (some header) cursor ∧
          (resolves count false).Yields brace (some own) brace ∧ header.start ≤ own.start ∧
            own.stop = header.stop := by
  intro scene line jumps resolves untagged
  have hg : ∀ offset, scene.isGuarded offset = false := Scene.isGuarded_eq_false unguarded
  have apart : scene.Apart := Scene.apart_ofText text language settings selecting
  constructor
  · intro other sameLine untaggedOther
    have alike := Header.acting?_congr hg untagged untaggedOther sameLine
    refine ⟨⟨_, yields_jump_line untagged, alike ▸ yields_jump_line untaggedOther⟩,
      fun count inner => ?_⟩
    have resolvesOther := Region.yields_resolve_line untaggedOther count inner
    exact ⟨_, Region.yields_resolve_line untagged count inner, alike ▸ resolvesOther⟩
  · intro destination landing found
    obtain ⟨header, acting, hd⟩ := Option.bind_eq_some_iff.mp ((yields_jump_line untagged).unique found).1
    obtain ⟨_, tag⟩ := Header.of_acting? acting
    rcases Header.at?_cases tag with ⟨tagged, _⟩ | ⟨_, hs, brace, hb, ha⟩
    · rw [untagged] at tagged
      contradiction
    have heads := Header.heads_of_brace? hb
    have opens : header.delimiter = .facing brace true := Delimiter.facing_of_at? ha heads.opens
    obtain ⟨p, hp⟩ := Delimiter.exists_partner_of_destination? hd
    have plain : [Rule.delimiters] = [] ∨ [Rule.delimiters] = [Rule.delimiters] ∨ scene.isSimple = true :=
      .inr (.inl rfl)
    have below : brace < p := ((Delimiter.partner?_opening apart heads.opens).mp (opens ▸ hp)).1
    refine ⟨brace, heads, ?_, fun count => ?_⟩
    · have jumps :=
        @yields_jump scene [Rule.delimiters] none brace _ _ rfl (Item.yields_operate_delimiter plain ha)
      rwa [hd] at jumps
    · have own := Region.yields_resolve_delimiter count false plain ha hp
      have whole := Region.yields_resolve_line untagged count false
      rw [acting, Option.bind_some, Delimiter.destination?_extending hp, Option.map_some, hs] at whole
      rw [opens] at own whole
      exact ⟨_, _, whole, own, Region.ofEnds_header hb (Nat.le_succ_of_le (Nat.le_of_lt below))⟩

-- a comment behind the brace is the last on the line
example : Header.at? (Scene.ofText (.ofString "do \x7b // a\n\x7d") "typescript" {} false) 0 = none := by
  decide +kernel

theorem header_line_acts_for_brace_below :
    let scene := Scene.ofText (.ofString "f()\r\n\t\x7b\r\n\x7d\n") "typescript" {} false
    let jumps := jump scene [Rule.delimiters] none
    let resolves := Region.resolve scene [Rule.delimiters]
    Delimiter.at? scene 0 = none ∧ Delimiter.at? scene 3 = none ∧
      jumps.Yields 0 (some 9) 9 ∧ jumps.Yields 3 (some 9) 9 ∧
      ∃ brace : Nat, Header.Heads scene 0 brace ∧ jumps.Yields brace (some 9) 9 ∧
        ∃ header own : Region, (resolves 1 false).Yields 0 (some header) 0 ∧
          (resolves 1 false).Yields brace (some own) brace ∧ header.start ≤ own.start ∧
            own.stop = header.stop := by
  intro scene jumps resolves
  obtain ⟨untagged, untaggedOther, line, sameLine, found⟩ : Delimiter.at? scene 0 = none ∧
      Delimiter.at? scene 3 = none ∧ scene.document.lineAt 0 = 0 ∧
        scene.document.lineAt 3 = scene.document.lineAt 0 ∧
          (jumps.run ⟨0, []⟩).1.toOption = some (some 9) := by
    decide +kernel
  obtain ⟨alike, acts⟩ := header_line_acts_for_brace _ "typescript" {} false (by decide) 0 untagged
  obtain ⟨⟨destination, front, rear⟩, _⟩ := alike 3 sameLine untaggedOther
  obtain ⟨entries, run⟩ := front []
  rw [run] at found
  obtain rfl := Option.some.inj found
  obtain ⟨brace, heads, jumpsToo, regions⟩ := acts 9 9 front
  exact ⟨untagged, untaggedOther, front, rear, brace, line ▸ heads, jumpsToo, regions 1⟩

end Motion

end Counterpart
