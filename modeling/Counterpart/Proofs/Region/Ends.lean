import Counterpart.Proofs.Delimiter.Involution
import Counterpart.Proofs.Region.Between

namespace Counterpart

namespace Region

open Delimiter

variable {scene : Scene}

lemma yields_resolve_delimiter {rules : List Rule} (count : Number) (inner : Bool) {origin : Int} {d : Delimiter}
    {partner : Nat} (plain : rules = [] ∨ rules = [Rule.delimiters] ∨ scene.isSimple = true)
    (at? : at? scene origin = some d) (hp : partner? scene d = some partner) :
    (resolve scene rules count inner).Yields origin
      (some (ofEnds scene inner d.start (if d.forward then (partner : Int) + 1 else partner))) origin := by
  have operates : (Item.operate { scene with selecting := true } rules count pure).Yields origin _ _ :=
    Item.yields_operate_delimiter plain at?
  rw [destination?_extending hp] at operates
  exact yields_resolve operates

section

variable {o p : Int} {b c : Bracket}

lemma opening_iff_lt (placing : scene.selecting = false) (unguarded : ∀ offset, scene.isGuarded offset = false)
    (apart : scene.Apart) (ho : scene.unit? o = some b.unit) (h : JumpsTo scene o p) :
    b.opening = true ↔ o < p := by
  cases o with
  | negSucc o => contradiction
  | ofNat o =>
    obtain ⟨s, _ | _⟩ := b
    · obtain ⟨q, rfl, hpair⟩ := (jumpsTo_closing placing unguarded apart ho).mp h
      have hlt := Int.ofNat_lt.mpr hpair.1
      exact iff_of_false Bool.false_ne_true (Int.not_lt.mpr (Int.le_of_lt hlt))
    · obtain ⟨q, rfl, hpair⟩ := (jumpsTo_opening placing unguarded apart ho).mp h
      exact iff_of_true rfl (Int.ofNat_lt.mpr hpair.1)

lemma yields_resolve_ends (unguarded : ∀ offset, scene.isGuarded offset = false) (apart : scene.Apart)
    {rules : List Rule} (plain : rules = [] ∨ rules = [Rule.delimiters] ∨ scene.isSimple = true)
    (count : Number)
    (inner : Bool) (ordered : o < p) (ho : scene.unit? o = some b.unit) (hp : scene.unit? p = some c.unit)
    (there : JumpsTo { scene with selecting := false } o p)
    (back : JumpsTo { scene with selecting := false } p o) :
    (resolve scene rules count inner).Yields o (some (ofEnds scene inner o (p + 1))) o ∧
      (resolve scene rules count inner).Yields p (some (ofEnds scene inner o (p + 1))) p := by
  let placing : Scene := { scene with selecting := false }
  have hg : ∀ offset, placing.isGuarded offset = false := unguarded
  have ha : placing.Apart := apart
  have opens : b.opening = true := (opening_iff_lt rfl hg ha ho there).mpr ordered
  have closes : c.opening = false := by
    rw [Bool.eq_false_iff, Ne, opening_iff_lt rfl hg ha hp back]
    exact Int.not_lt.mpr (Int.le_of_lt ordered)
  obtain ⟨q, hpq, hq⟩ := (jumpsTo_bracket rfl hg ho).mp there
  obtain ⟨r, hor, hr⟩ := (jumpsTo_bracket rfl hg hp).mp back
  have front := at?_bracket (unguarded o) ho
  have rear := at?_bracket (unguarded p) hp
  rw [opens] at front hq
  rw [closes] at rear hr
  constructor
  · have hy := yields_resolve_delimiter count inner plain front hq
    rwa [facing, if_pos rfl, if_pos rfl, ← hpq] at hy
  · have hy := yields_resolve_delimiter count inner plain rear hr
    rwa [facing, if_neg Bool.false_ne_true, if_neg Bool.false_ne_true, ← hor, ofEnds_comm] at hy

lemma yields_resolve_bracket (unguarded : ∀ offset, scene.isGuarded offset = false) (apart : scene.Apart)
    {rules : List Rule} (plain : rules = [] ∨ rules = [Rule.delimiters] ∨ scene.isSimple = true)
    (count : Number)
    (ho : scene.unit? o = some b.unit) (there : JumpsTo { scene with selecting := false } o p) :
    (resolve scene rules count false).Yields o (some (outer scene.document (min o p) (max o p + 1))) o := by
  obtain ⟨hne, hp, back⟩ := @jumpsTo_back { scene with selecting := false } rfl unguarded apart o p b ho there
  rw [← ofEnds_outer (by omega)]
  rcases Int.lt_or_gt_of_ne hne with before | behind
  · rw [Int.min_eq_right (Int.le_of_lt before), Int.max_eq_left (Int.le_of_lt before)]
    exact (yields_resolve_ends unguarded apart plain count false before hp ho back there).2
  · rw [Int.min_eq_left (Int.le_of_lt behind), Int.max_eq_right (Int.le_of_lt behind)]
    exact (yields_resolve_ends unguarded apart plain count false behind ho hp there back).1

end

/-- Brackets that jump to each other have one region, which is found from either of them. -/
theorem same_region_from_either_end (text : Text) (language : String) (settings : Settings) (selecting : Bool)
    (unguarded : settings.lineEndGuardLanguages.contains language = false) (rules : List Rule) (count : Number)
    (inner : Bool) (o p : Int) (b c : Bracket) (ordered : o < p) (ho : text.unit? o = some b.unit)
    (hp : text.unit? p = some c.unit) :
    let scene := Scene.ofText text language settings selecting
    let placing : Scene := { scene with selecting := false }
    rules = [] ∨ rules = [Rule.delimiters] ∨ scene.isSimple = true → JumpsTo placing o p →
      JumpsTo placing p o →
    ∃ region, (resolve scene rules count inner).Yields o (some region) o ∧
      (resolve scene rules count inner).Yields p (some region) p := by
  intro scene placing plain there back
  have hg : ∀ offset, scene.isGuarded offset = false := Scene.isGuarded_eq_false unguarded
  have apart : scene.Apart := Scene.apart_ofText text language settings selecting
  exact ⟨_, yields_resolve_ends hg apart plain count inner ordered ho hp there back⟩

theorem same_region_from_either_end_in_comment :
    let scene := Scene.ofText (.ofString "/*\n  [(\n  )]\n*/") "css" {} true
    let region : Region := ⟨3, 12, false⟩
    JumpsTo { scene with selecting := false } 5 11 ∧ JumpsTo { scene with selecting := false } 11 5 ∧
      (resolve scene [Rule.delimiters] 1 false).Yields 5 (some region) 5 ∧
      (resolve scene [Rule.delimiters] 1 false).Yields 11 (some region) 11 := by
  intro scene region
  obtain ⟨there, back, opens, closes, hr⟩ : JumpsTo { scene with selecting := false } 5 11 ∧
      JumpsTo { scene with selecting := false } 11 5 ∧
      (Text.ofString "/*\n  [(\n  )]\n*/").unit? 5 = some (Bracket.unit ⟨.square, true⟩) ∧
      (Text.ofString "/*\n  [(\n  )]\n*/").unit? 11 = some (Bracket.unit ⟨.square, false⟩) ∧
        ((resolve scene [Rule.delimiters] 1 false).run ⟨5, []⟩).1.toOption = some (some region) := by
    rw [jumpsTo_iff, jumpsTo_iff]
    decide +kernel
  obtain ⟨found, front, rear⟩ :=
    same_region_from_either_end _ "css" {} true (by decide) [Rule.delimiters] 1 false 5 11
    ⟨.square, true⟩ ⟨.square, false⟩ (by decide) opens closes (.inr (.inl rfl)) there back
  obtain ⟨entries, run⟩ := front []
  rw [run] at hr
  obtain rfl := Option.some.inj (Option.some.inj hr)
  exact ⟨there, back, front, rear⟩

end Region

end Counterpart
