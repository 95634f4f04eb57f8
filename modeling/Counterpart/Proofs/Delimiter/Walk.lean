import Counterpart.Proofs.Delimiter.Nesting
import Counterpart.Proofs.Delimiter.Quote
import Counterpart.Proofs.Loop

/-! The walks from a delimiter as loops that go from place to place, wherever the delimiter is and whichever
way it looks: each one ends where its search by distances says, within the text. -/

namespace Counterpart

namespace Delimiter

open Counterpart.Bracket

inductive Walk where
  | comparing (place : Int)
  | counting (place : Int) (level : Nat)
  | matching (place : Int) (expected : List UInt16)

variable (scene : Scene) (d : Delimiter)

def onward (place : Int) : Int := if d.forward then place + 1 else place - 1

def backward (place : Int) : Int := if d.forward then place - 1 else place + 1

def boundAt (place : Int) : Int := if d.forward then place + 1 else place

namespace Walk

def within (place : Int) : Bool := if scene.inComment d.offset then scene.inComment place else scene.inString place

def levelBehind (place : Int) (level : Nat) : Nat :=
  if within scene d place then
    match scene.unit? place with
    | none => level
    | some u =>
      if scene.unit? d.offset = some u then level + 1
      else if (scene.unit? d.offset).bind counterpartOf? = some u then level - 1
      else level
  else level

def first : Walk :=
  if (scene.unit? d.offset).any isQuoteGlyph then .comparing (d.onward d.offset)
  else if scene.inComment d.offset || scene.inString d.offset then .counting d.offset 1
  else .matching d.offset []

def step : Walk → Walk ⊕ Option Int
  | .comparing place =>
    if -1 ≤ place ∧ place ≤ scene.document.length then
      if scene.tags d.offset = scene.tags place then .inl (.comparing (d.onward place))
      else if scene.unit? (d.backward place) = scene.unit? d.offset then .inr (some (d.boundAt (d.backward place)))
      else .inr none
    else .inr none
  | .counting place level =>
    if place ≠ (if d.forward then (scene.document.length : Int) - 1 else 0) ∧ 0 < level then
      .inl (.counting (d.onward place) (levelBehind scene d (d.onward place) level))
    else .inr (if 0 < level then none else some (d.boundAt place))
  | .matching place expected =>
    if 0 ≤ place ∧ place < scene.document.length then
      if scene.inComment place || scene.inString place then .inl (.matching (d.onward place) expected)
      else
        match (scene.unit? place).bind ofUnit? with
        | none => .inl (.matching (d.onward place) expected)
        | some b =>
          if b.opening = d.forward then .inl (.matching (d.onward place) (b.flip.unit :: expected))
          else
            match expected with
            | [] => .inr none
            | top :: below =>
              if top ≠ b.unit then .inr none
              else if below.isEmpty then .inr (some (d.boundAt place))
              else .inl (.matching (d.onward place) below)
    else .inr none

end Walk

def closers (forward : Bool) (stack : List Shape) : List UInt16 :=
  stack.map fun s => Bracket.unit ⟨s, !forward⟩

variable {scene d}

lemma onward_placeAway (offset distance : Nat) :
    d.onward (placeAway offset d.forward distance) = placeAway offset d.forward (distance + 1) := by
  cases hf : d.forward <;> simp [onward, placeAway, hf] <;> omega

lemma backward_placeAway (offset distance : Nat) :
    d.backward (placeAway offset d.forward (distance + 1)) = placeAway offset d.forward distance := by
  cases hf : d.forward <;> simp [backward, placeAway, hf] <;> omega

structure StandsAt (scene : Scene) (d : Delimiter) (offset : Nat) (u : UInt16) : Prop where
  place : d.offset = offset
  unit : scene.unit? offset = some u

namespace StandsAt

variable {offset : Nat} {u : UInt16} (inside : StandsAt scene d offset u)
include inside

lemma lt_length : offset < scene.document.length := Document.lt_length_of_unit inside.unit

lemma placeAway_eq {distance : Nat} (h : distance ≤ reach scene offset d.forward) :
    placeAway offset d.forward distance = away offset d.forward distance := by
  have hl := inside.lt_length
  cases hf : d.forward with
  | true => simp [placeAway, away]
  | false =>
    simp only [hf, reach, placeAway, away, Bool.false_eq_true, if_false] at h ⊢
    omega

lemma bound?_eq_map : bound? scene d =
    (distance? scene offset d.forward u).map fun distance => d.boundAt (away offset d.forward distance) := by
  have partner : partner? scene d = (distance? scene offset d.forward u).map (away offset d.forward) := by
    rw [partner?, inside.place]
    show (scene.unit? offset).bind _ = _
    rw [inside.unit, Option.bind_some]
  rw [bound?_eq, partner, Option.map_map]
  rfl

lemma mem_text_iff (distance : Nat) :
    (0 ≤ placeAway offset d.forward distance ∧ placeAway offset d.forward distance < scene.document.length) ↔
      distance ≤ reach scene offset d.forward := by
  have hl := inside.lt_length
  cases hf : d.forward <;> simp [reach, placeAway] <;> omega

lemma near_text_iff (distance : Nat) :
    (-1 ≤ placeAway offset d.forward distance ∧
      placeAway offset d.forward distance ≤ scene.document.length) ↔
      distance ≤ reach scene offset d.forward + 1 := by
  have hl := inside.lt_length
  cases hf : d.forward <;> simp [reach, placeAway] <;> omega

lemma eq_limit_iff (distance : Nat) (h : distance ≤ reach scene offset d.forward) :
    placeAway offset d.forward distance = (if d.forward then (scene.document.length : Int) - 1 else 0) ↔
      distance = reach scene offset d.forward := by
  have hl := inside.lt_length
  cases hf : d.forward <;> simp [hf, reach, placeAway] at h ⊢ <;> omega

lemma ends_comparing {room : Nat} (distance : Nat) (h : distance + room = reach scene offset d.forward + 1) :
    let alike := fun e => scene.tags offset == tagsAway scene offset d.forward e
    let last := (lastAlike alike room distance).filter fun e => scene.unit? (away offset d.forward e) == some u
    ∃ trace, Ends (Walk.step scene d) (.comparing (placeAway offset d.forward (distance + 1))) trace
        (last.map fun e => d.boundAt (away offset d.forward e)) ∧ trace.length ≤ room := by
  intro alike
  -- Over the places that are left, one of them just outside the text.
  induction room generalizing distance with
  | zero =>
    have outside : ¬ distance + 1 ≤ reach scene offset d.forward + 1 := by omega
    apply exists_ends_leave
    exact if_neg (mt (inside.near_text_iff _).mp outside)
  | succ room ih =>
    have near := (inside.near_text_iff (distance + 1)).mpr (by omega)
    have here := inside.placeAway_eq (show distance ≤ reach scene offset d.forward by omega)
    have step : Walk.step scene d (.comparing (placeAway offset d.forward (distance + 1))) =
        if alike (distance + 1) then .inl (.comparing (placeAway offset d.forward (distance + 2)))
        else if scene.unit? (away offset d.forward distance) = some u then
          .inr (some (d.boundAt (away offset d.forward distance)))
        else .inr none := by
      rw [Walk.step, if_pos near, onward_placeAway, backward_placeAway, here, inside.place, inside.unit]
      simp only [alike, beq_iff_eq]
      rfl
    by_cases same : alike (distance + 1) = true
    · rw [lastAlike, if_pos same]
      exact exists_ends_again (step.trans (if_pos same)) (ih (distance + 1) (by omega))
    · rw [lastAlike, if_neg same]
      rw [if_neg same] at step
      apply exists_ends_leave
      rw [step]
      by_cases closes : scene.unit? (away offset d.forward distance) = some u <;> simp [Option.filter, closes]

lemma levelBehind_eq {distance level : Nat} (h : distance ≤ reach scene offset d.forward) :
    Walk.levelBehind scene d (placeAway offset d.forward distance) level =
      match if Walk.within scene d (away offset d.forward distance) then scene.unit?
        (away offset d.forward distance)
        else none with
      | none => level
      | some v => if v = u then level + 1 else if counterpartOf? u = some v then level - 1 else level := by
  rw [Walk.levelBehind, inside.placeAway_eq h, inside.place, inside.unit]
  split
  · simp only [Option.some.injEq, Option.bind_some, eq_comm]
  · rfl

lemma ends_counting {room : Nat} (distance level : Nat) (h : distance + room = reach scene offset d.forward) :
    let read := fun e =>
      if Walk.within scene d (away offset d.forward e) then scene.unit? (away offset d.forward e) else none
    ∃ trace, Ends (Walk.step scene d) (.counting (placeAway offset d.forward distance) (level + 1)) trace
        ((nested u read (level + 1) room (distance + 1)).map fun e => d.boundAt (away offset d.forward e)) ∧
      trace.length ≤ room := by
  intro read
  -- Over the places that are left. At the last one nothing is found, as the level is still positive.
  induction room generalizing distance level with
  | zero =>
    rw [Nat.add_zero] at h
    have limit := (inside.eq_limit_iff distance (Nat.le_of_eq h)).mpr h
    apply exists_ends_leave
    simp [Walk.step, limit, nested]
  | succ room ih =>
    have before := mt (inside.eq_limit_iff distance (by omega)).mp (by omega)
    have step : Walk.step scene d (.counting (placeAway offset d.forward distance) (level + 1)) =
        .inl (.counting (placeAway offset d.forward (distance + 1))
          (match read (distance + 1) with
          | none => level + 1
          | some v => if v = u then level + 2 else if counterpartOf? u = some v then level else level + 1)) := by
      rw [Walk.step, if_pos ⟨before, Nat.succ_pos level⟩, onward_placeAway, inside.levelBehind_eq (by omega)]
      rfl
    rw [nested]
    cases found : read (distance + 1) with
    | none =>
      rw [found] at step
      exact exists_ends_again step (ih (distance + 1) level (by omega))
    | some v =>
      rw [found] at step
      simp only at step ⊢
      by_cases deeper : v = u
      · rw [if_pos deeper] at step ⊢
        exact exists_ends_again step (ih (distance + 1) (level + 1) (by omega))
      · rw [if_neg deeper] at step ⊢
        by_cases closes : counterpartOf? u = some v
        · rw [if_pos closes] at step ⊢
          cases level with
          | zero =>
            have here := inside.placeAway_eq (show distance + 1 ≤ reach scene offset d.forward by omega)
            refine exists_ends_again step (exists_ends_leave ?_ room)
            simp [Walk.step, here]
          | succ level => exact exists_ends_again step (ih (distance + 1) level (by omega))
        · rw [if_neg closes] at step ⊢
          exact exists_ends_again step (ih (distance + 1) level (by omega))

lemma step_matching {distance : Nat} (h : distance ≤ reach scene offset d.forward) (stack : List Shape) :
    Walk.step scene d (.matching (placeAway offset d.forward distance) (closers d.forward stack)) =
      match codeBracket? scene (away offset d.forward distance) with
      | none => .inl (.matching (placeAway offset d.forward (distance + 1)) (closers d.forward stack))
      | some b =>
        if b.opening = d.forward then
          .inl (.matching (placeAway offset d.forward (distance + 1)) (closers d.forward (b.shape :: stack)))
        else
          match stack with
          | [] => .inr none
          | top :: below =>
            if top ≠ b.shape then .inr none
            else if below.isEmpty then .inr (some (d.boundAt (away offset d.forward distance)))
            else .inl (.matching (placeAway offset d.forward (distance + 1)) (closers d.forward below)) := by
  have text := (inside.mem_text_iff distance).mpr h
  rw [inside.placeAway_eq h] at text
  rw [inside.placeAway_eq h, Walk.step, if_pos text, ← inside.placeAway_eq h, onward_placeAway,
    inside.placeAway_eq h, codeBracket?, Scene.inCode]
  cases scene.inComment (away offset d.forward distance) with
  | true => rfl
  | false =>
    cases scene.inString (away offset d.forward distance) with
    | true => rfl
    | false =>
      simp only [Bool.or_self, Bool.false_eq_true, if_false, Bool.not_false, Bool.and_self, if_true]
      cases (scene.unit? (away offset d.forward distance)).bind ofUnit? with
      | none => rfl
      | some b =>
        by_cases enters : b.opening = d.forward
        · simp [enters, closers, Bracket.flip]
        · simp only [if_neg enters]
          cases stack with
          | nil => rfl
          | cons top below =>
            have closes : b.opening = !d.forward := Bool.eq_not.mpr enters
            have tops : Bracket.unit ⟨top, !d.forward⟩ = b.unit ↔ top = b.shape :=
              ⟨fun glyph => congrArg Bracket.shape (unit_injective glyph),
                fun shape => by rw [shape, ← closes]⟩
            simp [closers, tops]

lemma ends_matching {room : Nat} (distance : Nat) (h : distance + room = reach scene offset d.forward + 1)
    (stack : List Shape) :
    let read := fun e => codeBracket? scene (away offset d.forward e)
    ∃ trace,
      Ends (Walk.step scene d) (.matching (placeAway offset d.forward distance) (closers d.forward stack)) trace
        ((balanced d.forward read stack room distance).map fun e => d.boundAt (away offset d.forward e)) ∧
      trace.length ≤ room := by
  intro read
  induction room generalizing distance stack with
  | zero =>
    have outside := mt (inside.mem_text_iff distance).mp (by omega)
    apply exists_ends_leave
    exact if_neg outside
  | succ room ih =>
    have step := inside.step_matching (show distance ≤ reach scene offset d.forward by omega) stack
    have reads : read distance = codeBracket? scene (away offset d.forward distance) := rfl
    rw [balanced, reads]
    cases found : codeBracket? scene (away offset d.forward distance) with
    | none =>
      rw [found] at step
      exact exists_ends_again step (ih (distance + 1) (by omega) stack)
    | some b =>
      rw [found] at step
      simp only at step ⊢
      by_cases enters : b.opening = d.forward
      · rw [if_pos enters] at step ⊢
        exact exists_ends_again step (ih (distance + 1) (by omega) (b.shape :: stack))
      · rw [if_neg enters] at step ⊢
        cases stack with
        | nil => exact exists_ends_leave step _
        | cons top below =>
          simp only at step ⊢
          by_cases other : top ≠ b.shape
          · rw [if_pos other] at step ⊢
            exact exists_ends_leave step _
          · rw [if_neg other] at step ⊢
            by_cases last : below.isEmpty = true
            · rw [if_pos last] at step ⊢
              exact exists_ends_leave step _
            · rw [if_neg last] at step ⊢
              exact exists_ends_again step (ih (distance + 1) (by omega) below)

lemma ends : ∃ trace, Ends (Walk.step scene d) (Walk.first scene d) trace (bound? scene d) ∧
    trace.length ≤ reach scene offset d.forward + 1 := by
  have start : d.offset = placeAway offset d.forward 0 := by rw [placeAway_zero, inside.place]
  rw [Walk.first, inside.bound?_eq_map, distance?, inside.place, inside.unit, Option.any_some]
  by_cases glyph : isQuoteGlyph u = true
  · rw [if_pos glyph, if_pos glyph, ← inside.place, start, onward_placeAway]
    exact inside.ends_comparing 0 (Nat.zero_add _)
  · rw [if_neg glyph, if_neg glyph]
    by_cases comment : scene.inComment offset = true
    · obtain ⟨trace, ends, short⟩ := inside.ends_counting 0 0 (Nat.zero_add _)
      simp only [Walk.within, inside.place, comment, if_true] at ends
      rw [comment, Bool.true_or, if_pos rfl, if_pos rfl, ← inside.place, start]
      exact ⟨trace, ends, Nat.le_succ_of_le short⟩
    · rw [if_neg comment, Bool.eq_false_iff.mpr comment, Bool.false_or]
      by_cases string : scene.inString offset = true
      · obtain ⟨trace, ends, short⟩ := inside.ends_counting 0 0 (Nat.zero_add _)
        simp only [Walk.within, inside.place, comment, Bool.false_eq_true, if_false] at ends
        rw [if_pos string, if_pos string, ← inside.place, start]
        exact ⟨trace, ends, Nat.le_succ_of_le short⟩
      · rw [if_neg string, if_neg string, ← inside.place, start]
        exact inside.ends_matching 0 (Nat.zero_add _) []

end StandsAt

lemma ends_outside (outside : scene.unit? d.offset = none) (clear : scene.tags d.offset = Style.code.tags) :
    Ends (Walk.step scene d) (Walk.first scene d) [] (bound? scene d) := by
  have first : Walk.first scene d = .matching d.offset [] := by
    simp [Walk.first, outside, Scene.inComment, Scene.inString, clear, Style.tags]
  have away : ¬ (0 ≤ d.offset ∧ d.offset < scene.document.length) := by
    have bounds := Text.unit?_eq_none_iff.mp outside
    show ¬ (0 ≤ d.offset ∧ d.offset < scene.document.text.length)
    omega
  have nothing : bound? scene d = none := by
    rw [bound?_eq, partner?]
    cases place : d.offset with
    | negSucc => rfl
    | ofNat offset =>
      rw [place] at outside
      change scene.unit? (offset : Int) = none at outside
      simp only [outside, Option.bind_none, Option.map_none]
  rw [first, nothing]
  exact .leave (if_neg away)

/-- From any delimiter, wherever it is and whichever way it looks: the walk ends before it has gone on more
often than the text is long, what it finds is within the text, and the cursor is moved to a place of the text
or not at all. -/
theorem walks_end_within_text (text : Text) (language : String) (settings : Settings) (selecting : Bool)
    (d : Delimiter) :
    let scene := Scene.ofText text language settings selecting
    (∃ trace, Ends (Walk.step scene d) (Walk.first scene d) trace (bound? scene d) ∧
      trace.length ≤ text.length) ∧
    match bound? scene d with
    | none => ∃ entries, ∀ trail, (d.jump scene).run trail =
      (.ok none, ⟨trail.cursor, trail.journal ++ entries⟩)
    | some bound =>
      (if d.forward then 1 else 0) ≤ bound ∧ bound ≤ text.length ∧
      let destination := restingPlace bound d.forward selecting
      0 ≤ destination ∧ destination ≤ text.length ∧
        ∃ entries, ∀ trail, (d.jump scene).run trail =
          (.ok (some destination), ⟨destination, trail.journal ++ entries⟩) := by
  intro scene
  constructor
  · cases unit : scene.unit? d.offset with
    | none =>
      exact ⟨[], ends_outside unit (Scene.tags_outside text language settings selecting d.offset unit),
        Nat.zero_le _⟩
    | some u =>
      obtain ⟨offset, place⟩ : ∃ offset : Nat, d.offset = offset := by
        apply Int.eq_ofNat_of_zero_le
        apply Int.le_of_not_gt
        intro before
        have nothing : scene.unit? d.offset = none := Text.unit?_eq_none_iff.mpr (.inl before)
        rw [nothing] at unit
        contradiction
      rw [place] at unit
      have inside : StandsAt scene d offset u := ⟨place, unit⟩
      obtain ⟨trace, ends, short⟩ := inside.ends
      have room : offset < text.length := inside.lt_length
      have reaches : reach scene offset d.forward + 1 ≤ text.length := by
        show (if d.forward then text.length - 1 - offset else offset) + 1 ≤ text.length
        split <;> omega
      exact ⟨trace, ends, Nat.le_trans short reaches⟩
  · obtain ⟨entries, run⟩ := exists_run_jump scene d
    cases found : bound? scene d with
    | none =>
      have nowhere : destination? scene d = none := by rw [destination?, found, Option.map_none]
      rw [nowhere] at run
      exact ⟨entries, run⟩
    | some bound =>
      have lands : destination? scene d = some (restingPlace bound d.forward selecting) := by
        rw [destination?, found, Option.map_some]
        rfl
      obtain ⟨low, high⟩ := contains_destination? lands
      rw [lands] at run
      rw [bound?_eq] at found
      obtain ⟨partner, matched, rfl⟩ := Option.map_eq_some_iff.mp found
      have within : partner < text.length := partner?_lt_length matched
      refine ⟨?_, ?_, low, high, entries, run⟩
      · split <;> omega
      · split <;> omega

end Delimiter

end Counterpart
