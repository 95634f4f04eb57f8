import Counterpart.Proofs.Motion
import Counterpart.Proofs.Region.Containment

/-! Where motions end under reliable rules: in the document, if none of the rules goes on without end. -/

namespace Counterpart

def Region.LiesIn (region : Region) (text : Text) : Prop :=
  0 ≤ region.start ∧ region.start ≤ region.stop ∧ region.stop ≤ text.length

namespace Motion

def percentagePlace (doc : Document) (percent : Number) : Nat :=
  doc.firstNonBlank (percentageOffset doc.length percent)

lemma percentagePlace_le (doc : Document) (percent : Number) : percentagePlace doc percent ≤ doc.length :=
  Document.contentOfLine_le_length _

lemma yields_jumpToPercentage (scene : Scene) (percent : Number) (origin : Int) :
    (jumpToPercentage scene percent).Yields origin (percentagePlace scene.document percent)
      (percentagePlace scene.document percent) :=
  (Act.yields_moveTo _ _).bind (Act.yields_pure _ _)

lemma exists_yields_jumpToPercentage (scene : Scene) (percent : Number) (origin : Int) :
    ∃ destination, (jumpToPercentage scene percent).Yields origin destination destination ∧
      scene.document.Contains destination :=
  ⟨_, yields_jumpToPercentage scene percent origin, Document.contains_natCast (percentagePlace_le _ _)⟩

variable {scene : Scene} {rules : List Rule} {count : Option Number}

def Hang (rules : List Rule) (scene : Scene) (count : Option Number) : Prop :=
  ∃ rule ∈ rules, rule.Hangs scene (count.getD 1).times

lemma unreachable_of_hang {language : String} (h : Hang (Rulebook.standard.lookup language) scene count) :
    ∃ n ∈ count, n.times.hops = none := by
  obtain ⟨rule, hr, hangs⟩ := h
  have unreachable := Rulebook.unreachable_of_hangs hr hangs
  cases count with
  | none => exact absurd unreachable (by decide +kernel)
  | some n => exact ⟨n, rfl, unreachable⟩

lemma settles_jump (reliable : ∀ rule ∈ rules, rule.Reliable scene (count.getD 1).times) (origin : Int) :
    (jump scene rules count).Settles origin (∀ d ∈ ·, scene.document.Contains d)
    (Hang rules scene count) := by
  cases asks : asksPercentage scene.settings count with
  | some percent =>
    obtain ⟨destination, hy, inside⟩ := exists_yields_jumpToPercentage scene percent origin
    rw [jump, asks]
    refine hy.bind_settles ((Act.yields_pure _ _).settles ?_)
    rintro d ⟨⟩
    exact inside
  | none =>
    rcases Item.settles_operate reliable origin with ⟨found, between, operates, inside⟩ | ⟨hangs, endless⟩
    · exact (yields_jump asks operates).settles fun d hd => (inside d hd).2
    · exact .inr ⟨hangs, endless_jump asks endless⟩

variable (reliable : ∀ rule ∈ rules, rule.Reliable { scene with selecting := true } (count.getD 1).times)
  (inner : Bool) (origin : Int)
include reliable

lemma settles_select :
    (select scene rules count inner).Settles origin (∀ region ∈ ·, region.LiesIn scene.document.text)
    (Hang rules { scene with selecting := true } count) := by
  rcases Item.settles_operate reliable origin with ⟨⟨mark, destination⟩, landing, operates, inside⟩
    | ⟨hangs, endless⟩
  · refine (Region.yields_resolve operates).settles fun region hr => ?_
    obtain ⟨d, hd, rfl⟩ := Option.map_eq_some_iff.mp hr
    obtain ⟨hm, hi⟩ := inside d hd
    have nested :
        Region.Nested scene.document (Region.ofEnds scene false mark d) (Region.ofEnds scene true mark d) :=
      Region.nested_ofEnds hm hi
    obtain ⟨hfirst, hstart, hss, hstop, hlast⟩ := nested
    cases inner with
    | false => exact ⟨hfirst, by omega, hlast⟩
    | true => exact ⟨by omega, hss, Int.le_trans hstop hlast⟩
  · exact .inr ⟨hangs, Region.endless_resolve endless⟩

lemma settles_delete :
    (delete scene rules count inner).Settles origin (∀ region ∈ ·, region.LiesIn scene.document.text)
    (Hang rules { scene with selecting := true } count) := by
  refine (settles_select reliable inner origin).bind fun found between inside => ?_
  cases found with
  | none => exact (Act.yields_pure _ _).settles inside
  | some region => exact (Act.yields_moveTo _ _).bind_settles ((Act.yields_pure _ _).settles inside)

end Motion

end Counterpart
