import Counterpart.Proofs.Region.Between

namespace Counterpart

namespace Region

open Document

variable {scene : Scene}

def Nested (doc : Document) (outer inner : Region) : Prop :=
  0 ≤ outer.start ∧ outer.start ≤ inner.start ∧ inner.start ≤ inner.stop ∧
    inner.stop ≤ outer.stop ∧
    outer.stop ≤ doc.length

lemma nested_ofEnds {mark destination : Int} (hm : scene.document.Contains mark)
    (hd : scene.document.Contains destination) :
    Nested scene.document (ofEnds scene false mark destination) (ofEnds scene true mark destination) := by
  obtain ⟨m, rfl, hm⟩ := hm.exists_nat
  obtain ⟨d, rfl, hd⟩ := hd.exists_nat
  have hmin : min (m : Int) d = (min m d : Nat) := by omega
  have hmax : max (m : Int) d = (max m d : Nat) := by omega
  have hle : min m d ≤ max m d := by omega
  have hlast : max m d ≤ scene.document.length := by omega
  obtain ⟨first, hout, hfirst⟩ := outer_bounds (max m d : Nat) (Nat.le_trans hle hlast)
  obtain ⟨start, stop, hin, hstart, hss, hstop⟩ :=
    between_bounds (scene.settings.innerKeepsLastLine.contains scene.document.language) hle hlast
  simp only [ofEnds, hmin, hmax, if_true, Bool.false_eq_true, if_false, hout, hin, Nested]
  omega

/-- Both regions of an item are found or none is, the outer one contains the inner one, and the cursor stays;
else some rule goes on without end, and so does the search for either region. The standard rules are among
those it holds for, and go on without end only for counts that counting does not get to. -/
theorem outer_contains_inner (scene : Scene) (count : Number) (cursor : Int) :
    let extending : Scene := { scene with selecting := true }
    (∀ grammar, ∀ rule ∈ Rulebook.standard.lookup grammar, rule.Reliable extending count.times ∧
      (rule.Hangs extending count.times → count.times.hops = none)) ∧
    ∀ rules : List Rule, (∀ rule ∈ rules, rule.Reliable extending count.times) →
      (∃ outer inner, (resolve scene rules count false).Yields cursor outer cursor ∧
        (resolve scene rules count true).Yields cursor inner cursor ∧ (outer = none ↔ inner = none) ∧
        ∀ o ∈ outer, ∀ i ∈ inner, Nested scene.document o i) ∨
      (∃ rule ∈ rules, rule.Hangs extending count.times) ∧
        ∀ inner, (resolve scene rules count inner).Endless cursor := by
  intro extending
  refine ⟨fun grammar rule hr =>
    ⟨Rulebook.reliable_standard extending _ hr, Rulebook.unreachable_of_hangs hr⟩,
    fun rules reliable => ?_⟩
  rcases Item.settles_operate reliable cursor with
    ⟨⟨mark, destination⟩, landing, operates, inside⟩ | ⟨hangs, endless⟩
  case inr => exact .inr ⟨hangs, fun inner => endless_resolve endless⟩
  refine .inl ⟨_, _, yields_resolve operates, yields_resolve operates, ?_, ?_⟩
  · rw [Option.map_eq_none_iff, Option.map_eq_none_iff]
  · rintro o ho i hi
    obtain ⟨d, hd, rfl⟩ := Option.map_eq_some_iff.mp ho
    obtain ⟨d', hd', rfl⟩ := Option.map_eq_some_iff.mp hi
    obtain rfl := Option.some.inj (hd.symm.trans hd')
    obtain ⟨hmark, hdestination⟩ := inside d hd
    exact nested_ofEnds hmark hdestination

-- the inner region of an empty pair is empty
example :
    let scene := Scene.ofText (.ofString "()") "css" {} false
    let found := fun inner => ((resolve scene [] 1 inner).run ⟨1, []⟩).1.toOption
    found false = some (some ⟨0, 2, false⟩) ∧ found true = some (some ⟨1, 1, true⟩) := by
  decide +kernel

theorem outer_contains_inner_of_conditional :
    let scene := Scene.ofText (.ofString "a\r\n  if b\r\n    c\r\n  fi\r\n") "shellscript" {} false
    let rules := Rulebook.standard.lookup "shellscript"
    (∀ rule ∈ rules, rule.Reliable { scene with selecting := true } (Number.times 1)) ∧
      ∃ outer inner, (resolve scene rules 1 false).Yields 6 (some outer) 6 ∧
        (resolve scene rules 1 true).Yields 6 (some inner) 6 ∧ Nested scene.document outer inner := by
  intro scene rules
  obtain ⟨standard, nests⟩ := outer_contains_inner scene 1 6
  have reliable : ∀ rule ∈ rules, rule.Reliable { scene with selecting := true } (Number.times 1) :=
    fun rule hr => (standard "shellscript" rule hr).1
  have found : ((resolve scene rules 1 false).run ⟨6, []⟩).1.toOption = some (some ⟨3, 22, false⟩) := by
    decide +kernel
  have reached : (Number.times 1).hops ≠ none := by decide +kernel
  obtain ⟨outer, inner, ho, hi, hnone, nested⟩ :=
    (nests rules reliable).resolve_right fun ⟨⟨rule, hr, hangs⟩, _⟩ =>
      reached ((standard "shellscript" rule hr).2 hangs)
  obtain ⟨entries, run⟩ := ho []
  rw [run] at found
  obtain rfl := Option.some.inj found
  cases inner with
  | none => exact absurd (hnone.mpr rfl) (by simp)
  | some inner => exact ⟨reliable, _, inner, ho, hi, nested _ rfl inner rfl⟩

theorem no_region_at_long_count :
    let scene := Scene.ofText (.ofString "if a\nfi") "shellscript" {} false
    let rules := Rulebook.standard.lookup "shellscript"
    let count : Number := .finite (exactThreshold + 2 : Nat)
    (∀ rule ∈ rules, rule.Reliable { scene with selecting := true } count.times) ∧
      ∀ inner, (resolve scene rules count inner).Endless 0 ∧
        ∀ region, ¬ (resolve scene rules count inner).Yields 0 region 0 := by
  intro scene rules count
  let extending : Scene := { scene with selecting := true }
  let tag : KeywordTag := ⟨⟨0, .opening⟩, 0, 0⟩
  have found : KeywordTag.at? Block.shell extending 0 = some tag := by decide +kernel
  have course : tag.course Block.shell extending count.times = .error .endless := by decide +kernel
  have endless : ∀ inner, (resolve scene rules count inner).Endless 0 := fun inner =>
    endless_resolve (Item.endless_operate_keywords (by decide +kernel) found course)
  exact ⟨fun rule hr => Rulebook.reliable_standard _ _ hr, fun inner => ⟨endless inner, fun region =>
    (endless inner).not_yields⟩⟩

end Region

end Counterpart
