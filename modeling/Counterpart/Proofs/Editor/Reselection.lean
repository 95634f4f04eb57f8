import Counterpart.Proofs.Editor.Step
import Counterpart.Proofs.Region.Block
import Counterpart.Proofs.Region.Ends

namespace Counterpart

namespace Item

open Block Counterpart.Bracket Delimiter

/-- The item at an offset and its ends. It is a bracket that jumps to another one, or a line that opens or closes a
keyword block; such lines are not looked for where only delimiters count. -/
inductive Ends (scene : Scene) (offset : Int) : (start stop : Int) → Prop where
  | bracket {b : Bracket} {partner : Int}
      (plain : Rulebook.standard.lookup scene.document.language = [] ∨
        Rulebook.standard.lookup scene.document.language = [Rule.delimiters] ∨ scene.isSimple = true)
      (here : scene.unit? offset = some b.unit)
      (there : JumpsTo { scene with selecting := false } offset partner) :
      Ends scene offset (min offset partner) (max offset partner + 1)
  | block {blocks : List Block} {line other : Nat}
      (listed : (scene.document.language, blocks) ∈
        Rulebook.keywordLanguages) (notSimple : scene.isSimple = false)
      (here : scene.document.lineAt offset = line) (outermost : roleOfLine? blocks scene line ≠ some .middle)
      (there : counterpartLine? blocks { scene with selecting := true } line = some other) :
      Ends scene offset (scene.document.contentOfLine (min line other)) (scene.document.endOfLine (max line other))

namespace Ends

variable {scene : Scene} {offset start stop : Int}

lemma jumps_back (unguarded : ∀ offset, scene.isGuarded offset = false) (apart : scene.Apart) {b : Bracket}
    {partner : Int} (here : scene.unit? offset = some b.unit)
    (there : JumpsTo { scene with selecting := false } offset partner) :
    scene.unit? partner = some b.flip.unit ∧ JumpsTo { scene with selecting := false } partner offset :=
  (@jumpsTo_back { scene with selecting := false } rfl unguarded apart offset partner b here there).2

lemma exists_paired {blocks : List Block} {line other : Nat}
    (outermost : roleOfLine? blocks scene line ≠ some .middle)
    (there : counterpartLine? blocks { scene with selecting := true } line = some other) :
    ∃ number, Paired (brackets number (keywordOfLine? blocks scene)) (min line other) (max line other) :=
  @exists_paired_of_counterpart blocks { scene with selecting := true } rfl line other outermost there

lemma yields_resolve (unguarded : ∀ offset, scene.isGuarded offset = false) (apart : scene.Apart)
    (item : Ends scene offset start stop) :
    (Region.resolve scene (Rulebook.standard.lookup scene.document.language) 1 false).Yields offset
      (some (Region.outer scene.document start stop)) offset := by
  cases item with
  | bracket plain here there => exact Region.yields_resolve_bracket unguarded apart plain 1 here there
  | @block blocks line other listed notSimple here outermost there =>
    obtain ⟨name, hl⟩ := Rulebook.lookup_of_keywordLanguages listed
    obtain ⟨number, paired⟩ := exists_paired outermost there
    have onEnd : scene.document.lineAt offset = min line other ∨
        scene.document.lineAt offset = max line other := by
      omega
    rw [hl, ← Region.ofEnds_outer (Int.ofNat_le.mpr (Region.content_le_end_of_paired paired))]
    exact Region.yields_resolve_block notSimple Rule.still_delimiters paired onEnd false

lemma bounds (unguarded : ∀ offset, scene.isGuarded offset = false) (apart : scene.Apart)
    (item : Ends scene offset start stop) : 0 ≤ start ∧ start < stop ∧ stop ≤ scene.document.length := by
  cases item with
  | bracket plain here there =>
    obtain ⟨back, _⟩ := jumps_back unguarded apart here there
    have inside : ∀ {place : Int} {u : UInt16}, scene.unit? place = some u →
        0 ≤ place ∧ place < scene.document.length := by
      intro place u hu
      have outside := mt Text.unit?_eq_none_iff.mpr (Option.ne_none_iff_exists'.mpr ⟨u, hu⟩)
      rw [Document.length]
      omega
    have hoffset := inside here
    have hpartner := inside back
    omega
  | @block blocks line other listed notSimple here outermost there =>
    obtain ⟨number, paired⟩ := exists_paired outermost there
    obtain ⟨_, closes⟩ := Block.ends_of_paired paired
    have order := Document.contentOfLine_lt paired.1 (lt_lineCount_of_keyword closes)
    have last := content_lt_of_keyword closes
    have inside := scene.document.endOfLine_le_length (max line other)
    omega

lemma at_last (unguarded : ∀ offset, scene.isGuarded offset = false) (apart : scene.Apart)
    (item : Ends scene offset start stop) : Ends scene (stop - 1) start stop := by
  cases item with
  | @bracket b partner plain here there =>
    -- the last unit is the closing bracket, which jumps back
    obtain ⟨further, back⟩ := jumps_back unguarded apart here there
    rw [Int.add_sub_cancel]
    rcases Int.le_total offset partner with before | behind
    · have item := bracket plain further back
      rw [Int.min_comm, Int.max_eq_left before] at item
      rwa [Int.max_eq_right before]
    · have item := bracket plain here there
      rwa [Int.max_eq_left behind] at item ⊢
  | @block blocks line other listed notSimple here outermost there =>
    obtain ⟨number, paired⟩ := exists_paired outermost there
    obtain ⟨_, closes⟩ := Block.ends_of_paired paired
    -- the last unit stands on the closing line
    obtain ⟨last, hend, _, hline⟩ := exists_last_of_keyword closes
    have closing : roleOfLine? blocks scene (max line other) ≠ some .middle := by simp [roleOfLine?, closes]
    have back := (@counterpart_of_paired blocks { scene with selecting := true } number rfl _ _ paired).2
    have item := block listed notSimple hline closing back
    rw [Nat.min_eq_right (Nat.le_of_lt paired.1), Nat.max_eq_left (Nat.le_of_lt paired.1)] at item
    rwa [show (scene.document.endOfLine (max line other) : Int) - 1 = last by omega]

end Ends

end Item

namespace Editor

variable {editor : Editor} {selection : Selection} {start stop : Int}

lemma reveal_of_within (within : selection.Within editor.text) :
    editor.reveal selection = (editor.select selection, { events := [.revealed] }) := by
  obtain ⟨anchor, active⟩ := selection
  obtain ⟨⟨ha, hal⟩, hc, hcl⟩ := within
  have clamp : ∀ {place : Int}, 0 ≤ place → place ≤ editor.text.length →
      (editor.text.clamp place : Int) = place := by
    intro place nonneg inside
    rw [Text.clamp]
    omega
  rw [reveal, select, clamp ha hal, clamp hc hcl]

def scene (editor : Editor) : Scene := Scene.ofText editor.text editor.language editor.settings true

def spanning (editor : Editor) (start stop : Int) : Selection :=
  ⟨(Region.outer editor.scene.document start stop).start, stop⟩

lemma spanning_bounds (hs : 0 ≤ start) (hlt : start < stop) (hstop : stop ≤ editor.text.length) :
    (editor.spanning start stop).Within editor.text ∧
      (editor.spanning start stop).cursor editor.text = stop - 1 := by
  obtain ⟨s, rfl⟩ := Int.eq_ofNat_of_zero_le hs
  have inside : s ≤ editor.text.length := by omega
  obtain ⟨first, hr, hfirst⟩ := @Region.outer_bounds editor.scene.document s stop inside
  have forward : (first : Int) < stop := by omega
  have settled : editor.text.settle (stop - 1) = stop - 1 := Text.settle_of_mem (by omega) (by omega)
  have spans : editor.spanning s stop = ⟨first, stop⟩ := by rw [spanning, hr]
  rw [spans, Selection.cursor, if_pos forward, settled]
  have nonneg : 0 ≤ stop := by omega
  exact ⟨⟨⟨Int.natCast_nonneg first, Int.le_trans (Int.le_of_lt forward) hstop⟩, nonneg, hstop⟩, rfl⟩

lemma perform_select_eq (unguarded : editor.settings.lineEndGuardLanguages.contains editor.language = false)
    (item : Item.Ends editor.scene (editor.selection.cursor editor.text) start stop) {arguments : List Value}
    (uncounted : Command.count? arguments = none) (answer : Prompt.Answer) :
    ∃ journal, editor.perform .select arguments answer =
      (editor.select (editor.spanning start stop), { events := [.revealed], journal := journal }) := by
  have hg : ∀ offset, editor.scene.isGuarded offset = false := Scene.isGuarded_eq_false unguarded
  have apart : editor.scene.Apart := Scene.apart_ofText _ _ _ _
  obtain ⟨hs, hlt, hstop⟩ := item.bounds hg apart
  obtain ⟨within, _⟩ := spanning_bounds hs hlt hstop
  have yields := item.yields_resolve hg apart
  obtain ⟨entries, run⟩ :=
    @exists_runAct_eq editor _ (fun scene rules => Motion.select scene rules none false) _ _ yields
  refine ⟨entries ++ [], ?_⟩
  rw [perform, uncounted]
  rw [selectItem, run, conclude]
  exact congrArg (fun shown : Editor × Report =>
    (shown.1, { shown.2 with journal := entries ++ shown.2.journal }))
    (reveal_of_within within)

/-- Selecting an item again, from the selection that selecting it made, changes nothing. -/
theorem selecting_again_changes_nothing (editor : Editor)
    (unguarded : editor.settings.lineEndGuardLanguages.contains editor.language = false) (start stop : Int)
    (item : Item.Ends editor.scene (editor.selection.cursor editor.text) start stop) (arguments again : List Value)
    (answer : Prompt.Answer) (once : Command.count? arguments = none) (twice : Command.count? again = none) :
    let selected := editor.perform .select arguments answer
    let reselected := selected.1.perform .select again answer
    selected.2.events = [.revealed] ∧ selected.1.selection = editor.spanning start stop ∧
      reselected.2.events = [.revealed] ∧ reselected.1 = selected.1 := by
  intro selected reselected
  have hg : ∀ offset, editor.scene.isGuarded offset = false := Scene.isGuarded_eq_false unguarded
  have apart : editor.scene.Apart := Scene.apart_ofText _ _ _ _
  obtain ⟨hs, hlt, hstop⟩ := item.bounds hg apart
  let spanned := editor.select (editor.spanning start stop)
  have last : spanned.selection.cursor spanned.text = stop - 1 := (spanning_bounds hs hlt hstop).2
  have item' : Item.Ends spanned.scene (spanned.selection.cursor spanned.text) start stop :=
    last ▸ item.at_last hg apart
  obtain ⟨journal, first⟩ := perform_select_eq unguarded item once answer
  obtain ⟨journal', second⟩ := @perform_select_eq spanned start stop unguarded item' again twice answer
  have hselected : selected.1 = spanned := congrArg Prod.fst first
  have hreselected : reselected = spanned.perform .select again answer :=
    congrArg (fun shown : Editor => shown.perform .select again answer) hselected
  refine ⟨congrArg (fun shown => shown.2.events) first, congrArg Editor.selection hselected, ?_, ?_⟩
  · exact congrArg (fun shown => shown.2.events) (hreselected.trans second)
  · exact (congrArg Prod.fst (hreselected.trans second)).trans hselected.symm

theorem selecting_again_changes_nothing_in_conditional :
    let editor := (activate (.ofString "  if a\n    b\n  fi\n") "shellscript" ⟨4, 4⟩ []).1
    editor.settings.lineEndGuardLanguages.contains editor.language = false ∧
      Item.Ends editor.scene (editor.selection.cursor editor.text) 2 17 ∧
      (editor.perform .select [] .cancelled).1.selection = ⟨0, 17⟩ ∧
      ((editor.perform .select [] .cancelled).1.perform .select [] .cancelled).1 =
        (editor.perform .select [] .cancelled).1 := by
  intro editor
  have listed : ("shellscript", Block.shell) ∈ Rulebook.keywordLanguages := List.mem_cons_self
  obtain ⟨hstart, hstop, cursor, spans⟩ : (editor.scene.document.contentOfLine (min 0 2) : Int) = 2 ∧
      (editor.scene.document.endOfLine (max 0 2) : Int) = 17 ∧ editor.selection.cursor editor.text = 4 ∧
        editor.spanning 2 17 = ⟨0, 17⟩ := by
    decide +kernel
  have item : Item.Ends editor.scene 4 (editor.scene.document.contentOfLine (min 0 2))
      (editor.scene.document.endOfLine (max 0 2)) :=
    .block listed (by decide +kernel) (by decide +kernel) (by decide +kernel) (by decide +kernel)
  rw [hstart, hstop, ← cursor] at item
  have unguarded : editor.settings.lineEndGuardLanguages.contains editor.language = false := by decide +kernel
  obtain ⟨_, hs, _, hr⟩ := selecting_again_changes_nothing editor unguarded 2 17 item [] [] .cancelled rfl rfl
  rw [spans] at hs
  exact ⟨unguarded, item, hs, hr⟩

end Editor

end Counterpart
