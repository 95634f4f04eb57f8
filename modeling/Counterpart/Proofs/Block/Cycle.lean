import Counterpart.Block.Builtin
import Counterpart.Proofs.Block.Lap
import Mathlib.Data.List.Chain
import Mathlib.Data.List.GetD

/-! Steps along a block go round: from its opening line over its middle lines to the closing line, and back. -/

namespace Counterpart

namespace Block

open Counterpart.Bracket

def Step (blocks : List Block) (scene : Scene) (line next : Nat) : Prop :=
  counterpartLine? blocks scene line = some next

def Passes (blocks : List Block) (scene : Scene) (o : Nat) (middles : List Nat) : Prop :=
  (∀ m ∈ middles, roleOfLine? blocks scene m = some .middle) ∧
    List.IsChain (Step blocks scene) (o :: middles)

variable {blocks : List Block} {scene : Scene}

lemma role_eq_some_iff {line : Nat} {role : Role} :
    roleOfLine? blocks scene line = some role ↔
      ∃ keyword, keywordOfLine? blocks scene line = some keyword ∧ keyword.role = role :=
  Option.map_eq_some_iff

lemma step_down {line next : Nat} {keyword : LineKeyword} (placing : scene.selecting = false)
    (hk : keywordOfLine? blocks scene line = some keyword) (hr : keyword.role ≠ .closing)
    (h : Step blocks scene line next) :
    line < next ∧ (∃ found, keywordOfLine? blocks scene next = some found ∧ found.block = keyword.block ∧
        found.role ≠ .opening) ∧
      WellBracketed (span (brackets keyword.block (keywordOfLine? blocks scene)) (line + 1) next) := by
  obtain ⟨keyword', found, hk', hp⟩ := counterpartLine?_eq_some_iff.mp h
  obtain rfl := Option.some.inj (hk.symm.trans hk')
  obtain ⟨hlt, hf, hb, ho, hw⟩ := partnerOfLine?_pausing placing hr hp
  exact ⟨hlt, ⟨found, hf, hb, ho⟩, hw⟩

lemma exists_steps (placing : scene.selecting = false) {line : Nat} {keyword : LineKeyword}
    (hk : keywordOfLine? blocks scene line = some keyword) (hr : keyword.role ≠ .closing) :
    ∃ middles, Passes blocks scene line middles ∧
      (counterpartLine? blocks scene (middles.getLastD line) = none ∨
        ∃ c, Step blocks scene (middles.getLastD line) c ∧ roleOfLine? blocks scene c = some .closing) := by
  -- The lines that are left below become fewer with each step.
  induction hleft : scene.document.lineCount - line using Nat.strongRecOn generalizing line keyword with
  | ind left ih =>
    cases hn : counterpartLine? blocks scene line with
    | none => exact ⟨[], ⟨by simp, List.isChain_singleton _⟩, .inl hn⟩
    | some next =>
      obtain ⟨hlt, ⟨found, hf, _, ho⟩, _⟩ := step_down placing hk hr hn
      have hrole : roleOfLine? blocks scene next = some found.role := role_eq_some_iff.mpr ⟨found, hf, rfl⟩
      by_cases hc : found.role = .closing
      · exact ⟨[], ⟨by simp, List.isChain_singleton _⟩, .inr ⟨next, hn, hc ▸ hrole⟩⟩
      · have hm : found.role = .middle := by
          cases hfr : found.role <;> simp_all
        have hline := lt_lineCount_of_keyword hf
        obtain ⟨middles, ⟨hmiddles, steps⟩, hend⟩ := ih _ (by omega) hf hc rfl
        refine ⟨next :: middles, ⟨List.forall_mem_cons.mpr ⟨hm ▸ hrole, hmiddles⟩,
          List.isChain_cons_cons.mpr ⟨hn, steps⟩⟩, ?_⟩
        rwa [List.getLastD_cons]

lemma steps_down (placing : scene.selecting = false) {line next : Nat} {middles : List Nat} {keyword : LineKeyword}
    (hk : keywordOfLine? blocks scene line = some keyword) (hr : keyword.role ≠ .closing)
    (middle : ∀ m ∈ middles, roleOfLine? blocks scene m = some .middle)
    (steps : List.IsChain (Step blocks scene) (line :: (middles ++ [next]))) :
    line < next ∧ (∃ found, keywordOfLine? blocks scene next = some found ∧ found.block = keyword.block) ∧
      WellBracketed (span (brackets keyword.block (keywordOfLine? blocks scene)) (line + 1) next) := by
  induction middles generalizing line keyword with
  | nil =>
    obtain ⟨hlt, ⟨found, hf, hb, _⟩, hw⟩ := step_down placing hk hr (List.isChain_cons_cons.mp steps).1
    exact ⟨hlt, ⟨found, hf, hb⟩, hw⟩
  | cons m middles ih =>
    obtain ⟨first, rest⟩ := List.isChain_cons_cons.mp steps
    obtain ⟨hm, hmiddles⟩ := List.forall_mem_cons.mp middle
    obtain ⟨hlt, ⟨found, hf, hb, _⟩, hw⟩ := step_down placing hk hr first
    obtain ⟨found', hf', hmr⟩ := role_eq_some_iff.mp hm
    obtain rfl := Option.some.inj (hf.symm.trans hf')
    obtain ⟨hlt', hn, hw'⟩ := ih hf (by rw [hmr]; decide) hmiddles rest
    have hnone : brackets keyword.block (keywordOfLine? blocks scene) m = none := by
      simp [brackets, hf, LineKeyword.bracket?, hb, hmr]
    rw [hb] at hn hw'
    refine ⟨Nat.lt_trans hlt hlt', hn, ?_⟩
    rw [span_append _ hlt (Nat.le_of_lt hlt'), span_skip _ hlt' hnone]
    exact hw.append hw'

lemma step_back (placing : scene.selecting = false) {o c : Nat} {middles : List Nat}
    (opens : roleOfLine? blocks scene o = some .opening)
    (middle : ∀ m ∈ middles, roleOfLine? blocks scene m = some .middle)
    (closes : roleOfLine? blocks scene c = some .closing)
    (steps : List.IsChain (Step blocks scene) (o :: (middles ++ [c]))) : Step blocks scene c o := by
  obtain ⟨first, ho, hor⟩ := role_eq_some_iff.mp opens
  obtain ⟨last, hc, hcr⟩ := role_eq_some_iff.mp closes
  obtain ⟨hlt, ⟨found, hf, hb⟩, hw⟩ := steps_down placing ho (by rw [hor]; decide) middle steps
  obtain rfl := Option.some.inj (hc.symm.trans hf)
  have paired : Paired (brackets last.block (keywordOfLine? blocks scene)) o c := by
    refine ⟨hlt, .round, ?_, ?_, hb ▸ hw⟩
    · simp [brackets, ho, LineKeyword.bracket?, hor, hb]
    · simp [brackets, hc, LineKeyword.bracket?, hcr]
  exact counterpartLine?_eq_some_iff.mpr ⟨last, first, hc,
    (partnerOfLine?_closing hc hcr).mpr ⟨paired, ho⟩⟩

section

variable {cycle : List Nat} (steps : List.IsChain (Step blocks scene) cycle)
  (back : ∀ x ∈ cycle.getLast?, ∀ y ∈ cycle.head?, Step blocks scene x y)
include steps back

lemma step_round {i : Nat} (hi : i < cycle.length) :
    Step blocks scene (cycle.getD i 0) (cycle.getD ((i + 1) % cycle.length) 0) := by
  by_cases hn : i + 1 < cycle.length
  · rw [Nat.mod_eq_of_lt hn]
    simpa [hi, hn] using List.isChain_iff_getElem.mp steps i hn
  · have hl : i + 1 = cycle.length := by omega
    rw [hl, Nat.mod_self]
    apply back
    · rw [List.getLast?_eq_getElem?, ← hl, Nat.add_sub_cancel, List.getElem?_eq_getElem hi,
        List.getD_eq_getElem _ _ hi]
      rfl
    · rw [List.head?_eq_getElem?, List.getElem?_eq_getElem (by omega : 0 < cycle.length),
        List.getD_eq_getElem _ _ (by omega)]
      rfl

lemma follow_round {j x : Nat} (hx : cycle[j]? = some x) {tag : KeywordTag}
    (ht : tagOfLine? blocks scene x = some tag) {n : Nat} (hn : 1 ≤ n) :
    ∃ y, cycle[(j + n) % cycle.length]? = some y ∧ (Course.follow blocks scene tag none n).left = 0 ∧
      (Course.follow blocks scene tag none n).reached = some y := by
  obtain ⟨hj, hxj⟩ := List.getElem?_eq_some_iff.mp hx
  have hpos : 0 < cycle.length := Nat.lt_of_le_of_lt (Nat.zero_le j) hj
  let path := fun i => cycle.getD ((j + i) % cycle.length) 0
  have hstart : path 0 = x := by simp [path, Nat.mod_eq_of_lt hj, hx]
  have hsteps : ∀ i < n, counterpartLine? blocks scene (path i) = some (path (i + 1)) := by
    intro i _
    have hs := step_round steps back (Nat.mod_lt (j + i) hpos)
    rwa [Nat.mod_add_mod] at hs
  obtain ⟨last, _, hf⟩ := follow_along (hstart.symm ▸ ht) hsteps 0
  have hne : n ≠ 0 := by omega
  rw [Nat.add_zero, if_neg hne] at hf
  have hl := Nat.mod_lt (j + n) hpos
  refine ⟨path n, ?_, by rw [hf, Course.follow], by rw [hf, Course.follow]⟩
  rw [List.getElem?_eq_getElem hl]
  exact congrArg some (List.getD_eq_getElem _ _ hl).symm

end

lemma follow_chain {o : Nat} {middles : List Nat} (steps : List.IsChain (Step blocks scene) (o :: middles))
    (stop : counterpartLine? blocks scene (middles.getLastD o) = none) {tag : KeywordTag}
    (ht : tagOfLine? blocks scene o = some tag) {n : Nat} (hn : 1 ≤ n) :
    (Course.follow blocks scene tag none n).reached = middles[min n middles.length - 1]? ∧
      (Course.follow blocks scene tag none n).left = n - middles.length := by
  let path := fun i => (o :: middles).getD i 0
  let hops := min n middles.length
  have hsteps : ∀ i < hops, counterpartLine? blocks scene (path i) = some (path (i + 1)) := by
    intro i hi
    have hlt : i + 1 < (o :: middles).length := by
      rw [List.length_cons]
      omega
    have hs := List.isChain_iff_getElem.mp steps i hlt
    simp only [path]
    rw [List.getD_eq_getElem _ _ (Nat.lt_of_succ_lt hlt), List.getD_eq_getElem _ _ hlt]
    exact hs
  have hstart : tagOfLine? blocks scene (path 0) = some tag := ht
  obtain ⟨last, hl, hf⟩ := follow_along hstart hsteps (n - hops)
  rw [Nat.add_sub_cancel' (Nat.min_le_left n middles.length)] at hf
  have hstays : ∀ reached, Course.follow blocks scene last reached (n - hops) =
      ⟨n - hops, last, reached⟩ := by
    intro reached
    by_cases hz : n - hops = 0
    · rw [hz, Course.follow]
    · have hall : hops = middles.length := by omega
      have hpath : path hops = middles.getLastD o := by
        rw [hall]
        rcases List.eq_nil_or_concat middles with rfl | ⟨init, m, rfl⟩
        · rfl
        · simp [path]
      rw [follow_stop hl (hpath ▸ stop)]
  rw [hf, hstays]
  refine ⟨?_, show n - hops = n - middles.length by omega⟩
  change _ = middles[hops - 1]?
  cases hh : hops with
  | zero =>
    have hnil : middles.length = 0 := by omega
    rw [if_pos rfl, List.getElem?_eq_none (by omega)]
  | succ h =>
    have hlt : h < middles.length := by omega
    rw [if_neg (Nat.succ_ne_zero h), Nat.add_sub_cancel, List.getElem?_eq_getElem hlt]
    exact congrArg some (List.getD_eq_getElem middles 0 hlt)

/-- Counted jumps go round a block: from its opening line over its middle lines to the closing line and on to the
opening line again. In a block that is not closed they stop at the last middle line, and there is no third kind of
block. A count beyond 2^53 is never reached, so that in a closed block its jump goes round for ever. -/
theorem count_goes_round (blocks : List Block) (scene : Scene) (placing : scene.selecting = false) (o : Nat)
    (opens : roleOfLine? blocks scene o = some .opening) :
    (∃ middles, Passes blocks scene o middles ∧
      (counterpartLine? blocks scene (middles.getLastD o) = none ∨
        ∃ c, Step blocks scene (middles.getLastD o) c ∧ roleOfLine? blocks scene c = some .closing)) ∧
    ∀ middles, Passes blocks scene o middles →
      (∀ c, Step blocks scene (middles.getLastD o) c → roleOfLine? blocks scene c = some .closing →
        Step blocks scene c o ∧
        ∀ (j x : Nat) (offset : Int), (o :: (middles ++ [c]))[j]? = some x →
          scene.document.lineAt offset = x →
          ∃ tag, KeywordTag.at? blocks scene offset = some tag ∧ ∀ n : Nat, 1 ≤ n →
            (n ≤ exactThreshold → ∃ y, (o :: (middles ++ [c]))[(j + n) % (middles.length + 2)]? = some y ∧
              ∀ origin, (tag.jump blocks scene (.finite n)).Yields origin
                (some (scene.document.contentOfLine y)) (scene.document.contentOfLine y)) ∧
            (exactThreshold < n → ∀ origin, (tag.jump blocks scene (.finite n)).Endless origin)) ∧
      (counterpartLine? blocks scene (middles.getLastD o) = none →
        ∀ offset, scene.document.lineAt offset = o →
          ∃ tag, KeywordTag.at? blocks scene offset = some tag ∧
            ∀ n : Nat, 1 ≤ n → n ≤ exactThreshold ∨ middles.length < n →
              (middles = [] → ∀ origin, (tag.jump blocks scene (.finite n)).Yields origin none origin) ∧
              (middles ≠ [] → ∃ m, middles[min n middles.length - 1]? = some m ∧
                ∀ origin, (tag.jump blocks scene (.finite n)).Yields origin
                  (some (scene.document.contentOfLine m)) (scene.document.contentOfLine m))) := by
  obtain ⟨first, ho, hor⟩ := role_eq_some_iff.mp opens
  refine ⟨exists_steps placing ho (by rw [hor]; decide), fun middles ⟨middle, steps⟩ =>
    ⟨fun c next closes => ?_, fun stop offset hoffset => ?_⟩⟩
  · have closed : List.IsChain (Step blocks scene) (o :: (middles ++ [c])) := by
      rw [← List.cons_append, List.isChain_append]
      refine ⟨steps, List.isChain_singleton c, fun x hx y hy => ?_⟩
      rw [List.getLast?_cons, ← List.getLastD_eq_getLast?, Option.mem_some] at hx
      obtain rfl := hx
      obtain rfl := Option.mem_some.mp hy
      exact next
    have back : Step blocks scene c o := step_back placing opens middle closes closed
    have hback : ∀ x ∈ (o :: (middles ++ [c])).getLast?, ∀ y ∈ (o :: (middles ++ [c])).head?,
        Step blocks scene x y := by
      intro x hx y hy
      rw [← List.cons_append, List.getLast?_concat, Option.mem_some] at hx
      obtain rfl := hx
      obtain rfl := Option.mem_some.mp hy
      exact back
    have hlength : (o :: (middles ++ [c])).length = middles.length + 2 := by simp
    refine ⟨back, fun j x offset hx hoffset => ?_⟩
    have hrole : ∃ role, roleOfLine? blocks scene x = some role := by
      have hmem := List.mem_of_getElem? hx
      rw [List.mem_cons, List.mem_append, List.mem_singleton] at hmem
      rcases hmem with rfl | hm | rfl
      · exact ⟨_, opens⟩
      · exact ⟨_, middle x hm⟩
      · exact ⟨_, closes⟩
    obtain ⟨role, hr⟩ := hrole
    obtain ⟨tag, ht⟩ := exists_tag_of_role hr
    refine ⟨tag, by rw [← ht, ← hoffset]; rfl,
      fun n hn => ⟨fun reachable => ?_, fun beyond origin => ?_⟩⟩
    · obtain ⟨y, hy, _, reached⟩ := follow_round closed hback hx ht hn
      rw [hlength] at hy
      exact ⟨y, hy, fun origin => yields_jump placing (.inl reachable) reached origin⟩
    · refine endless_jump beyond (fun hops => ?_) origin
      cases hops with
      | zero => rfl
      | succ hops =>
        obtain ⟨_, _, whole, _⟩ := follow_round closed hback hx ht (Nat.succ_pos hops)
        exact whole
  · obtain ⟨tag, ht⟩ := exists_tag_of_role opens
    refine ⟨tag, by rw [← ht, ← hoffset]; rfl, fun n hn reachable => ?_⟩
    obtain ⟨reached, left⟩ := follow_chain steps stop ht hn
    have ends : n ≤ exactThreshold ∨ 0 < (Course.follow blocks scene tag none n).left := by
      rw [left]
      omega
    refine ⟨fun hnil origin => ?_, fun hne => ?_⟩
    · subst hnil
      exact yields_jump placing ends reached origin
    · have hlt : min n middles.length - 1 < middles.length := by
        have hpos := List.length_pos_iff.mpr hne
        omega
      rw [List.getElem?_eq_getElem hlt] at reached
      exact ⟨_, List.getElem?_eq_getElem hlt, fun origin => yields_jump placing ends reached origin⟩

theorem count_goes_round_if :
    let scene := Scene.ofText (.ofString "if a\n  if b\n  fi\nelse\n  c\nfi") "shellscript" {} false
    roleOfLine? shell scene 0 = some .opening ∧ Passes shell scene 0 [3] ∧ Step shell scene 3 5 ∧
      roleOfLine? shell scene 5 = some .closing ∧
      ∃ tag, KeywordTag.at? shell scene 20 = some tag ∧
        ∀ origin, (tag.jump shell scene (.finite (2 : Nat))).Yields origin (some 0) 0 := by
  intro scene
  obtain ⟨opens, middle, closes⟩ : roleOfLine? shell scene 0 = some .opening ∧
      (∀ m ∈ [3], roleOfLine? shell scene m = some .middle) ∧ roleOfLine? shell scene 5 = some .closing := by
    decide +kernel
  obtain ⟨first, last, line, content⟩ : counterpartLine? shell scene 0 = some 3 ∧
      counterpartLine? shell scene 3 = some 5 ∧ scene.document.lineAt 20 = 3 ∧
        scene.document.contentOfLine 0 = 0 := by
    decide +kernel
  have passes : Passes shell scene 0 [3] := ⟨middle, List.isChain_pair.mpr first⟩
  have round := ((count_goes_round shell scene rfl 0 opens).2 [3] passes).1 5 last closes
  obtain ⟨tag, ht, jumps⟩ := round.2 1 3 20 rfl line
  obtain ⟨y, hy, yields⟩ := (jumps 2 (by decide)).1 (by decide)
  have hzero : y = 0 := by simpa using hy.symm
  rw [hzero, content] at yields
  exact ⟨opens, passes, last, closes, tag, ht, yields⟩

theorem long_count_never_arrives :
    let scene := Scene.ofText (.ofString "if a\nfi") "shellscript" {} false
    let tag : KeywordTag := ⟨⟨0, .opening⟩, 0, 0⟩
    let jump := tag.jump shell scene (.finite (exactThreshold + 2 : Nat))
    roleOfLine? shell scene 0 = some .opening ∧ Step shell scene 0 1 ∧
      roleOfLine? shell scene 1 = some .closing ∧
      KeywordTag.at? shell scene 0 = some tag ∧ jump.Endless 0 ∧ ¬ jump.Yields 0 (some 0) 0 := by
  intro scene tag jump
  obtain ⟨opens, next, closes, found⟩ : roleOfLine? shell scene 0 = some .opening ∧
      counterpartLine? shell scene 0 = some 1 ∧ roleOfLine? shell scene 1 = some .closing ∧
        KeywordTag.at? shell scene 0 = some tag := by
    decide +kernel
  have round : Course.follow shell scene tag none 1 = Course.follow shell scene tag none 3 := by decide +kernel
  have whole : (Course.follow shell scene tag none 3).left = 0 := by decide +kernel
  have endless : jump.Endless 0 :=
    endless_jump (Nat.lt_add_of_pos_right (by decide)) (Course.whole_of_round (by decide) whole round) 0
  exact ⟨opens, next, closes, found, endless, endless.not_yields⟩

end Block

end Counterpart
