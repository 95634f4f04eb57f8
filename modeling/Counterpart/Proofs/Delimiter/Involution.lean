import Counterpart.Proofs.Delimiter.Jump

namespace Counterpart

namespace Delimiter

open Counterpart.Bracket

def JumpsTo (scene : Scene) (o p : Int) : Prop :=
  ∀ journal, ((simpleJump scene).run ⟨o, journal⟩).1 = .ok (some p)

variable {scene : Scene}

lemma jumpsTo_iff (o p : Int) : JumpsTo scene o p ↔ landing? scene o = some p := by
  have hr : ∀ journal, ((simpleJump scene).run ⟨o, journal⟩).1 = .ok (landing? scene o) := by
    intro journal
    obtain ⟨entries, he⟩ := yields_simpleJump scene o journal
    rw [he]
  simp only [JumpsTo, hr, Except.ok.injEq]
  exact ⟨fun h => h [], fun h _ => h⟩

lemma JumpsTo.unique {o p q : Int} (hp : JumpsTo scene o p) (hq : JumpsTo scene o q) : p = q := by
  rw [jumpsTo_iff] at hp hq
  exact Option.some.inj (hp.symm.trans hq)

lemma destination?_placing (placing : scene.selecting = false) (d : Delimiter) :
    destination? scene d = (partner? scene d).map Int.ofNat := by
  cases hf : d.forward <;> cases hp : partner? scene d <;>
    simp [destination?, bound?, restingPlace, hf, hp, placing]

lemma at?_bracket {o : Int} {b : Bracket} (unguarded : scene.isGuarded o = false)
    (ho : scene.unit? o = some b.unit) : at? scene o = some (facing o b.opening) := by
  simp [at?, unguarded, direction?, ho]

lemma ends_of_paired {zone : Zone} {s : Shape} {o p : Nat} (h : Paired (counted scene zone s) o p) :
    ∃ t, scene.unit? o = some (Bracket.unit ⟨t, true⟩) ∧
      scene.unit? p = some (Bracket.unit ⟨t, false⟩) ∧ scene.zone o = zone ∧ scene.zone p = zone := by
  obtain ⟨_, t, ho, hp, _⟩ := h
  obtain ⟨hzo, huo, _⟩ := (counted_eq_some_iff scene _ _ _ _).mp ho
  obtain ⟨hzp, hup, _⟩ := (counted_eq_some_iff scene _ _ _ _).mp hp
  exact ⟨t, huo, hup, hzo, hzp⟩

lemma partner?_back (apart : scene.Apart) {o p : Nat} {b : Bracket} (ho : scene.unit? o = some b.unit)
    (h : partner? scene (facing o b.opening) = some p) :
    p ≠ o ∧ scene.unit? p = some b.flip.unit ∧ scene.zone p = scene.zone o ∧
      partner? scene (facing p b.flip.opening) = some o := by
  obtain ⟨s, _ | _⟩ := b
  · have paired := (partner?_closing apart ho).mp h
    obtain ⟨t, hp, ht, hz, _⟩ := ends_of_paired paired
    obtain ⟨rfl, _⟩ := Bracket.mk.inj (unit_injective (Option.some.inj (ht.symm.trans ho)))
    exact ⟨Nat.ne_of_lt paired.1, hp, hz, (partner?_opening apart hp).mpr (hz.symm ▸ paired)⟩
  · have paired := (partner?_opening apart ho).mp h
    obtain ⟨t, ht, hp, _, hz⟩ := ends_of_paired paired
    obtain ⟨rfl, _⟩ := Bracket.mk.inj (unit_injective (Option.some.inj (ht.symm.trans ho)))
    exact ⟨Nat.ne_of_gt paired.1, hp, hz, (partner?_closing apart hp).mpr (hz.symm ▸ paired)⟩

section

variable (placing : scene.selecting = false) (unguarded : ∀ offset, scene.isGuarded offset = false)
include placing unguarded

lemma jumpsTo_bracket {o p : Int} {b : Bracket} (ho : scene.unit? o = some b.unit) :
    JumpsTo scene o p ↔ ∃ q : Nat, p = q ∧ partner? scene (facing o b.opening) = some q := by
  rw [jumpsTo_iff, landing?, at?_bracket (unguarded o) ho, Option.bind_some, destination?_placing placing,
    Option.map_eq_some_iff]
  constructor
  · rintro ⟨q, hq, rfl⟩
    exact ⟨q, rfl, hq⟩
  · rintro ⟨q, rfl, hq⟩
    exact ⟨q, hq, rfl⟩

lemma jumpsTo_opening (apart : scene.Apart) {o : Nat} {p : Int} {s : Shape}
    (ho : scene.unit? o = some (Bracket.unit ⟨s, true⟩)) :
    JumpsTo scene o p ↔ ∃ q : Nat, p = q ∧ Paired (counted scene (scene.zone o) s) o q := by
  simp only [jumpsTo_bracket placing unguarded ho, partner?_opening apart ho]

lemma jumpsTo_closing (apart : scene.Apart) {o : Nat} {p : Int} {s : Shape}
    (ho : scene.unit? o = some (Bracket.unit ⟨s, false⟩)) :
    JumpsTo scene o p ↔ ∃ q : Nat, p = q ∧ Paired (counted scene (scene.zone o) s) q o := by
  simp only [jumpsTo_bracket placing unguarded ho, partner?_closing apart ho]

lemma jumpsTo_back (apart : scene.Apart) {o p : Int} {b : Bracket} (ho : scene.unit? o = some b.unit)
    (h : JumpsTo scene o p) : p ≠ o ∧ scene.unit? p = some b.flip.unit ∧ JumpsTo scene p o := by
  cases o with
  | negSucc o => contradiction
  | ofNat o =>
    obtain ⟨q, rfl, hp⟩ := (jumpsTo_bracket placing unguarded ho).mp h
    obtain ⟨hne, hq, _, back⟩ := partner?_back apart ho hp
    exact ⟨fun he => hne (Int.ofNat.inj he), hq, (jumpsTo_bracket placing unguarded hq).mpr ⟨o, rfl, back⟩⟩

lemma jumpsTo_glyph {o p : Int} {u : UInt16} (ho : scene.unit? o = some u) (hb : ofUnit? u = none)
    (h : JumpsTo scene o p) : scene.unit? p = some u := by
  cases o with
  | negSucc o => contradiction
  | ofNat o =>
    rw [jumpsTo_iff, landing?, at?, unguarded, if_neg Bool.false_ne_true, direction?, ho] at h
    simp only [hb] at h
    split at h
    · next hg =>
      rw [Option.map_some, Option.bind_some, destination?_placing placing, Option.map_eq_some_iff] at h
      obtain ⟨q, hq, rfl⟩ := h
      obtain ⟨v, hv, hw⟩ := Option.bind_eq_some_iff.mp hq
      obtain rfl := Option.some.inj (hv.symm.trans ho)
      obtain ⟨d, hd, rfl⟩ := Option.map_eq_some_iff.mp hw
      rw [distance?, if_pos (Bool.and_eq_true_iff.mp hg).1, otherQuote?, Option.filter_eq_some_iff] at hd
      exact eq_of_beq hd.2
    · simp at h

lemma bracket_of_jumpsTo {o p : Int} {b : Bracket} (hp : scene.unit? p = some b.unit) (h : JumpsTo scene o p) :
    ∃ c : Bracket, scene.unit? o = some c.unit := by
  cases ho : scene.unit? o with
  | none =>
    rw [jumpsTo_iff, landing?, at?, unguarded, if_neg Bool.false_ne_true, direction?, ho] at h
    simp at h
  | some u =>
    cases hc : ofUnit? u with
    | none =>
      have hu := (jumpsTo_glyph placing unguarded ho hc h).symm.trans hp
      rw [Option.some.inj hu, ofUnit?_unit] at hc
      contradiction
    | some c => exact ⟨c, by rw [ofUnit?_eq_some_iff.mp hc]⟩

end

/-- Jumps between brackets undo each other: the match of a bracket holds its counterpart and jumps back, so
matching is symmetric and no two offsets share a match. -/
theorem bracket_jumps_undo (text : Text) (language : String) (settings : Settings)
    (unguarded : settings.lineEndGuardLanguages.contains language = false) :
    let scene := Scene.ofText text language settings false
    (∀ (o p : Int) (b : Bracket), text.unit? o = some b.unit → JumpsTo scene o p →
      p ≠ o ∧ text.unit? p = some b.flip.unit ∧ JumpsTo scene p o) ∧
    (∀ (o p : Int) (b : Bracket), text.unit? o = some b.unit → (JumpsTo scene o p ↔ JumpsTo scene p o)) ∧
    ∀ (o o' p : Int) (b : Bracket), text.unit? o = some b.unit →
      JumpsTo scene o p → JumpsTo scene o' p → o = o' := by
  intro scene
  have hg : ∀ offset, scene.isGuarded offset = false := Scene.isGuarded_eq_false unguarded
  have apart : scene.Apart := Scene.apart_ofText text language settings false
  have back : ∀ {o p : Int} {b : Bracket}, text.unit? o = some b.unit → JumpsTo scene o p →
      p ≠ o ∧ text.unit? p = some b.flip.unit ∧ JumpsTo scene p o :=
    fun ho h => jumpsTo_back rfl hg apart ho h
  refine ⟨fun o p b ho h => back ho h, fun o p b ho => ⟨fun h => (back ho h).2.2, fun h => ?_⟩,
    fun o o' p b ho h h' => ?_⟩
  · obtain ⟨c, hc⟩ := bracket_of_jumpsTo rfl hg ho h
    exact (back hc h).2.2
  · obtain ⟨_, hp, hb⟩ := back ho h
    obtain ⟨c, hc⟩ := bracket_of_jumpsTo rfl hg hp h'
    exact hb.unique (back hc h').2.2

theorem bracket_jumps_undo_past_comment :
    let scene := Scene.ofText (.ofString "(/* ) */ \")\")") "typescript" {} false
    JumpsTo scene 0 12 ∧ JumpsTo scene 12 0 := by
  intro scene
  have h : JumpsTo scene 0 12 := (jumpsTo_iff 0 12).mpr (by decide +kernel)
  exact ⟨h, ((bracket_jumps_undo _ _ {} (by decide)).1 0 12 ⟨.round, true⟩ (by decide +kernel) h).2.2⟩

end Delimiter

end Counterpart
