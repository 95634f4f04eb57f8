import Counterpart.Proofs.Item.Answer
import Counterpart.Proofs.LineBreak.Block
import Counterpart.Proofs.LineBreak.Region

namespace Counterpart

def widenFound (text : Text) : Int × Option Int → Int × Option Int :=
  Prod.map text.place (Option.map text.place)

variable {scene wide : Scene}

structure Answer.Widens (answer? : Answer) (scene wide : Scene) : Prop where
  place : ∀ o : Nat, o ≤ scene.document.length → answer? wide (scene.document.text.place o) =
    (answer? scene o).map (widenFound scene.document.text)
  encloses : scene.selecting = true → ∀ o : Nat, ∀ found ∈ answer? scene o, ∀ destination ∈ found.2,
    scene.Encloses found.1 destination

lemma Header.answer?_widens (h : scene.Widens wide) : answer?.Widens scene wide where
  place o ho := by
    rw [answer?, answer?, Text.place_natCast, at?_place h ho]
    cases hh : at? scene o with
    | none => rfl
    | some header =>
      simp only [Option.map_some]
      rw [widen, destination?_place h hh]
      rfl
  encloses extending o found hf := by
    obtain ⟨header, hh, rfl⟩ := Option.map_eq_some_iff.mp hf
    exact encloses_destination? h.styled extending hh

lemma KeywordTag.answer?_widens (h : scene.Widens wide) (blocks : List Block) :
    (answer? blocks).Widens scene wide where
  place o _ := by
    rw [answer?, answer?, at?_place h o]
    cases at? blocks scene o with
    | none => rfl
    | some tag =>
      simp only [Option.map_some]
      rw [Course.follow_widen h, Course.destination?_widen h]
      rfl
  encloses extending o found hf := by
    obtain ⟨tag, ht, rfl⟩ := Option.map_eq_some_iff.mp hf
    exact Course.encloses_destination? extending ht

lemma Delimiter.answer_place (h : scene.Widens wide) {o : Nat} (ho : o ≤ scene.document.length) :
    answer wide (scene.document.text.place o) = widenFound scene.document.text (answer scene o) := by
  rw [answer, answer, Text.place_natCast, at?_place h ho]
  cases hd : at? scene o with
  | none =>
    rw [← Text.place_natCast]
    rfl
  | some d =>
    simp only [Option.map_some]
    rw [destination?_place h hd]
    rfl

lemma Delimiter.encloses_answer (styled : scene.Styled) (extending : scene.selecting = true) (o : Nat) :
    ∀ destination ∈ (answer scene o).2, scene.Encloses (answer scene o).1 destination := by
  rw [answer]
  cases hd : at? scene o with
  | none => simp
  | some d => exact encloses_destination? styled extending hd

namespace Item

variable {answers : List Answer}

lemma findSome?_place {o : Nat} (ho : o ≤ scene.document.length)
    (widens : ∀ answer? ∈ answers, answer?.Widens scene wide) :
    (answers.findSome? fun answer? => answer? wide (scene.document.text.place o)) =
      (answers.findSome? fun answer? => answer? scene o).map (widenFound scene.document.text) := by
  induction answers with
  | nil => rfl
  | cons answer? answers ih =>
    obtain ⟨ha, widens⟩ := List.forall_mem_cons.mp widens
    rw [List.findSome?_cons, List.findSome?_cons, ha.place o ho]
    cases answer? scene o with
    | none => exact ih widens
    | some found => rfl

lemma found_place (h : scene.Widens wide) {o : Nat} (ho : o ≤ scene.document.length)
    (widens : ∀ answer? ∈ answers, answer?.Widens scene wide) :
    found wide answers (scene.document.text.place o) = widenFound scene.document.text (found scene answers o) := by
  have simple : wide.isSimple = scene.isSimple := by
    rw [Scene.isSimple, Scene.isSimple, h.settings, h.document.language]
  have asked : ∀ answer? ∈ if scene.isSimple then [] else answers, answer?.Widens scene wide := by
    split
    · simp
    · exact widens
  rw [found, found, simple, findSome?_place ho asked, Delimiter.answer_place h ho]
  exact (Option.getD_map _ _ _)

lemma encloses_found (styled : scene.Styled) (extending : scene.selecting = true) (o : Nat)
    (widens : ∀ answer? ∈ answers, answer?.Widens scene wide) :
    ∀ destination ∈ (found scene answers o).2, scene.Encloses (found scene answers o).1 destination := by
  rw [found]
  cases hf : (if scene.isSimple then [] else answers).findSome? fun answer? => answer? scene o with
  | none => exact Delimiter.encloses_answer styled extending o
  | some known =>
    obtain ⟨answer?, ha, hk⟩ := List.exists_of_findSome?_eq_some hf
    have asked : answer? ∈ answers := by
      split at ha
      · contradiction
      · exact ha
    exact (widens answer? asked).encloses extending o known hk

end Item

namespace Rulebook

lemma exists_answers_widens (grammar : String) :
    ∃ answers : List Answer, List.Forall₂ Rule.Answers (standard.lookup grammar) answers ∧
      ∀ {scene wide : Scene}, scene.Widens wide → ∀ answer? ∈ answers, answer?.Widens scene wide := by
  obtain ⟨answers, answered, known⟩ := exists_answers_standard grammar
  refine ⟨answers, answered, fun h answer? ha => ?_⟩
  rcases known answer? ha with rfl | ⟨blocks, rfl⟩
  · exact Header.answer?_widens h
  · exact KeywordTag.answer?_widens h blocks

end Rulebook

namespace Motion

variable {o : Nat}

lemma exists_yields_operate_place (h : scene.Widens wide) (ho : o ≤ scene.document.length) (grammar : String) :
    ∃ found landing landingWide,
      (Item.operate scene (Rulebook.standard.lookup grammar) 1 pure).Yields o found landing ∧
      (Item.operate wide (Rulebook.standard.lookup grammar) 1 pure).Yields (scene.document.text.place o)
        (widenFound scene.document.text found) landingWide ∧
      (scene.selecting = true → ∀ destination ∈ found.2, scene.Encloses found.1 destination) := by
  obtain ⟨answers, answered, widens⟩ := Rulebook.exists_answers_widens grammar
  obtain ⟨landing, narrow⟩ := Item.exists_yields_operate_found answered scene o
  obtain ⟨landingWide, broad⟩ := Item.exists_yields_operate_found answered wide (scene.document.text.place o)
  rw [Item.found_place h ho (widens h)] at broad
  exact ⟨_, landing, landingWide, narrow, broad, fun extending =>
    Item.encloses_found h.styled extending o (widens h)⟩

lemma exists_yields_jump_place (h : scene.Widens wide) (ho : o ≤ scene.document.length) (grammar : String) :
    ∃ result : Option Int,
      (jump scene (Rulebook.standard.lookup grammar) none).Yields o result (result.getD o) ∧
      (jump wide (Rulebook.standard.lookup grammar) none).Yields (scene.document.text.place o)
        (result.map scene.document.text.place) (scene.document.text.place (result.getD o)) := by
  obtain ⟨found, _, _, narrow, broad, _⟩ := exists_yields_operate_place h ho grammar
  have jumps : (jump wide _ none).Yields _ _ _ := yields_jump rfl broad
  rw [widenFound, Prod.map_snd, Option.getD_map] at jumps
  exact ⟨found.2, yields_jump rfl narrow, jumps⟩

lemma exists_yields_resolve_place (h : scene.Widens wide) (ho : o ≤ scene.document.length) (grammar : String)
    (inner : Bool) :
    ∃ region, (Region.resolve scene (Rulebook.standard.lookup grammar) 1 inner).Yields o region o ∧
      (Region.resolve wide (Rulebook.standard.lookup grammar) 1 inner).Yields (scene.document.text.place o)
        (region.map (Region.widen scene.document.text)) (scene.document.text.place o) := by
  have extending := h.selectingToo
  obtain ⟨⟨mark, destination⟩, _, _, narrow, broad, encloses⟩ :=
    exists_yields_operate_place extending ho grammar
  have resolves : (Region.resolve wide _ 1 inner).Yields _ _ _ := Region.yields_resolve broad
  refine ⟨_, Region.yields_resolve narrow, ?_⟩
  cases destination with
  | none => exact resolves
  | some destination =>
    have region :
        Region.ofEnds wide inner (scene.document.text.place mark) (scene.document.text.place destination) =
        (Region.ofEnds scene inner mark destination).widen scene.document.text :=
      Region.ofEnds_place extending inner (encloses rfl destination rfl)
    rw [Option.map_some, Option.map_some] at resolves
    rw [Option.map_some, Option.map_some, ← region]
    exact resolves

/-- A carriage return before each line feed of a text changes no motion, where the strings of the text read alike:
jumps lead to the same place, and the same regions are found. -/
theorem widened_breaks_change_no_motion (text : Text) (language : String) (settings : Settings) (selecting : Bool)
    (plain : carriageReturn ∉ text.toUnits) (alike : Token.ReadsAlike (Lexicon.ofLanguage language) text.toUnits)
    (guards : settings.GuardsExactly language text.widen.length) (o : Nat) (ho : o ≤ text.length) :
    let scene := Scene.ofText text language settings selecting
    let wide := Scene.ofText text.widen language settings selecting
    let rules := Rulebook.standard.lookup language
    (∃ result : Option Int, (jump scene rules none).Yields o result (result.getD o) ∧
      (jump wide rules none).Yields (text.place o) (result.map text.place) (text.place (result.getD o))) ∧
    ∀ inner, ∃ region, (Region.resolve scene rules 1 inner).Yields o region o ∧
      (Region.resolve wide rules 1 inner).Yields (text.place o) (region.map (Region.widen text))
        (text.place o) := by
  intro scene wide rules
  have widens : scene.Widens wide := Scene.widens_ofText plain alike guards selecting
  constructor
  · exact exists_yields_jump_place widens ho language
  · intro inner
    exact exists_yields_resolve_place widens ho language inner

theorem widened_breaks_change_no_motion_from_brace :
    let text : Text := .ofString "f(a) \x7b\n  g(\"\x7d\"); // \x7d\n\x7d"
    let settings := (Settings.read [("lineEndGuardLanguages", .list [.string "typescript"]),
      ("lineEndGuardOffset", .number 3)]).1
    let wide := Scene.ofText text.widen "typescript" settings false
    let rules := Rulebook.standard.lookup "typescript"
    carriageReturn ∉ text.toUnits ∧ Token.ReadsAlike (Lexicon.ofLanguage "typescript") text.toUnits ∧
      settings.GuardsExactly "typescript" text.widen.length ∧ 22 ≤ text.length ∧
      (jump wide rules none).Yields 24 (some 5) 5 ∧
      (Region.resolve wide rules 1 true).Yields 24 (some ⟨8, 22, true⟩) 24 := by
  intro text settings wide rules
  obtain ⟨plain, alike, inside⟩ : carriageReturn ∉ text.toUnits ∧
      Token.ReadsAlike (Lexicon.ofLanguage "typescript") text.toUnits ∧ 22 ≤ text.length := by
    decide +kernel
  have guards : settings.GuardsExactly "typescript" text.widen.length :=
    Settings.guardsExactly_read _ "typescript" (by decide +kernel)
  obtain ⟨⟨result, narrow, jumps⟩, regions⟩ :=
    widened_breaks_change_no_motion text "typescript" settings false plain alike guards 22 inside
  obtain ⟨region, narrowRegion, resolves⟩ := regions true
  let scene := Scene.ofText text "typescript" settings false
  obtain ⟨jumped, resolved⟩ : ((jump scene rules none).run ⟨(22 : Nat), []⟩).1.toOption = some (some 5) ∧
      ((Region.resolve scene rules 1 true).run ⟨(22 : Nat), []⟩).1.toOption =
        some (some ⟨7, 21, true⟩) := by
    decide +kernel
  obtain ⟨_, run⟩ := narrow []
  rw [run] at jumped
  obtain ⟨_, run⟩ := narrowRegion []
  rw [run] at resolved
  obtain rfl := Option.some.inj jumped
  obtain rfl := Option.some.inj resolved
  have places : text.place (22 : Nat) = 24 ∧ text.place 5 = 5 ∧ text.place 7 = 8 ∧ text.place 21 = 22 := by
    decide +kernel
  simp only [Option.map_some, Option.getD_some, Region.widen, places] at jumps resolves
  exact ⟨plain, alike, guards, inside, jumps, resolves⟩

theorem widened_breaks_change_jump_at_escape :
    let text : Text := .ofString "\"a\\\nb\""
    let scene := Scene.ofText text "typescript" {} false
    let wide := Scene.ofText text.widen "typescript" {} false
    let rules := Rulebook.standard.lookup "typescript"
    carriageReturn ∉ text.toUnits ∧
      ((jump scene rules none).run ⟨0, []⟩).1.toOption = some (some 5) ∧
      ((jump wide rules none).run ⟨text.place 0, []⟩).1.toOption = some none := by
  decide +kernel

end Motion

end Counterpart
