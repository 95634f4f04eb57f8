import Counterpart.Delimiter.Header
import Counterpart.Proofs.Delimiter.Jump
import Counterpart.Proofs.Document.Lines

namespace Counterpart

namespace Header

variable {scene : Scene}

def at? (scene : Scene) (offset : Int) : Option Header :=
  if scene.isGuarded offset then none
  else
    match Delimiter.at? scene offset with
    | some d => some ⟨d.start, d⟩
    | none =>
      (brace? scene offset).bind fun brace =>
        (Delimiter.at? scene brace).map fun d => ⟨scene.document.firstNonBlank offset, d⟩

lemma at?_of_delimiter {offset : Int} {d : Delimiter} (h : Delimiter.at? scene offset = some d) :
    at? scene offset = some ⟨d.start, d⟩ := by
  rw [at?, Delimiter.unguarded_of_at? h, if_neg Bool.false_ne_true, h]

lemma unguarded_of_at? {offset : Int} {header : Header} (h : at? scene offset = some header) :
    scene.isGuarded offset = false := by
  rw [at?] at h
  split at h
  · contradiction
  · next hg => exact Bool.eq_false_iff.mpr hg

lemma exists_looks_inspect (scene : Scene) (origin : Int) :
    ∃ noted, (inspect scene).Looks origin noted (at? scene origin) := by
  refine Act.exists_looks_bind ⟨_, Act.looks_cursor⟩ ?_
  rw [at?]
  split
  · exact ⟨_, Act.looks_pure _⟩
  · refine Act.exists_looks_bind (Delimiter.exists_looks_inspect scene origin origin) ?_
    cases Delimiter.at? scene origin with
    | some d => exact ⟨_, Act.looks_pure _⟩
    | none =>
      cases brace? scene origin with
      | none => exact ⟨_, Act.looks_pure _⟩
      | some brace =>
        exact Act.exists_looks_bind (Delimiter.exists_looks_inspect scene brace origin) ⟨_, Act.looks_pure _⟩

lemma yields_inspect (scene : Scene) (origin : Int) : (inspect scene).Yields origin (at? scene origin) origin := by
  obtain ⟨noted, looks⟩ := exists_looks_inspect scene origin
  exact looks.yields

structure Heads (scene : Scene) (line brace : Nat) : Prop where
  opens : scene.unit? brace = some (Bracket.unit ⟨.curly, true⟩)
  code : scene.inCode brace = true
  last : scene.document.LastOnLine brace
  near : scene.document.lineAt brace = line ∨
    scene.document.lineAt brace = line + 1 ∧ scene.document.FirstOnLine brace

lemma heads_of_brace? {offset : Int} {brace : Nat} (h : brace? scene offset = some brace) :
    Heads scene (scene.document.lineAt offset) brace := by
  have codeBrace : ∀ {place}, isCodeBrace scene place = true →
      scene.unit? place = some (Bracket.unit ⟨.curly, true⟩) ∧ scene.inCode place = true :=
    fun hb => (Bool.and_eq_true_iff.mp hb).imp_left eq_of_beq
  rw [brace?] at h
  split at h
  · contradiction
  · next last hx =>
    obtain ⟨hline, hlast⟩ := Document.lineAt_lastNonBlank? hx
    split at h
    · next hb =>
      obtain rfl := Option.some.inj h
      exact ⟨(codeBrace hb).1, (codeBrace hb).2, hlast, .inl hline⟩
    · simp only [] at h
      split at h
      · contradiction
      · next hlen =>
        split at h
        · next hb =>
          rw [Bool.and_eq_true, beq_iff_eq] at hb
          obtain rfl := Option.some.inj h
          have below := scene.document.lineAt_lt_lineCount (scene.document.nextLineStart offset)
          have hnext := Document.lineAt_nextLineStart (Nat.lt_of_not_le hlen)
          refine ⟨(codeBrace hb.1).1, (codeBrace hb.1).2, (Document.lineAt_lastNonBlank? hb.2).2,
            .inr ⟨?_, ?_⟩⟩
          · rw [Document.firstNonBlank, Document.lineAt_contentOfLine below, hnext]
          · exact Document.firstOnLine_contentOfLine below
        · contradiction

lemma Heads.lineAt_le {line brace : Nat} (heads : Heads scene line brace) :
    line ≤ scene.document.lineAt brace := by
  have near := heads.near
  omega

lemma lineAt_brace? {offset : Int} {brace : Nat} (h : brace? scene offset = some brace) :
    scene.unit? brace = some (Bracket.unit ⟨.curly, true⟩) ∧
      scene.document.lineAt offset ≤ scene.document.lineAt brace ∧
      ∀ (q : Nat) (b : Bracket), brace < q → scene.unit? q = some b.unit →
        scene.document.lineAt brace < scene.document.lineAt q := by
  have heads := heads_of_brace? h
  refine ⟨heads.opens, heads.lineAt_le, fun q b below hq => ?_⟩
  apply heads.last.lineAt_lt below hq <;> rcases b with ⟨_ | _ | _, _ | _⟩ <;> decide

lemma firstNonBlank_le_brace? {offset : Int} {brace : Nat} (h : brace? scene offset = some brace) :
    scene.document.firstNonBlank offset ≤ brace := by
  obtain ⟨hb, hline, _⟩ := lineAt_brace? h
  have inside : brace < scene.document.length := Document.lt_length_of_unit hb
  rcases Nat.eq_or_lt_of_le hline with heq | hlt
  · rw [Document.firstNonBlank, heq]
    apply Document.skipIndent_le (Document.startOfLine_lineAt_le (Nat.le_of_lt inside))
    exact congrArg (Option.any isIndent) hb
  · rw [← Document.lineAt_contentOfLine (scene.document.lineAt_lt_lineCount offset)] at hlt
    exact Int.ofNat_le.mp (Int.le_of_lt (Document.lt_of_lineAt_lt hlt))

lemma at?_cases {offset : Int} {header : Header} (h : at? scene offset = some header) :
    (Delimiter.at? scene offset = some header.delimiter ∧ header.start = header.delimiter.start) ∨
      Delimiter.at? scene offset = none ∧ header.start = scene.document.firstNonBlank offset ∧
        ∃ brace : Nat, brace? scene offset = some brace ∧
        Delimiter.at? scene brace = some header.delimiter := by
  rw [at?] at h
  split at h
  · contradiction
  · split at h
    · next d hd =>
      obtain rfl := Option.some.inj h
      exact .inl ⟨hd, rfl⟩
    · next hd =>
      obtain ⟨brace, hb, hm⟩ := Option.bind_eq_some_iff.mp h
      obtain ⟨d, ha, rfl⟩ := Option.map_eq_some_iff.mp hm
      exact .inr ⟨hd, rfl, brace, hb, ha⟩

end Header

end Counterpart
