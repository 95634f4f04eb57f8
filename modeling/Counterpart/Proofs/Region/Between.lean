import Counterpart.Region
import Counterpart.Proofs.Item

namespace Counterpart

namespace Region

open Document

lemma yields_resolve {scene : Scene} {rules : List Rule} {count : Number} {inner : Bool}
    {origin mark landing : Int} {destination : Option Int}
    (operates : (Item.operate { scene with selecting := true } rules count pure).Yields origin
      (mark, destination) landing) :
    (resolve scene rules count inner).Yields origin (destination.map (ofEnds scene inner mark)) origin := by
  refine (Act.yields_cursor origin).bind (operates.bind ((Act.yields_moveTo _ _).bind ?_))
  exact Act.yields_pure _ _

lemma endless_resolve {scene : Scene} {rules : List Rule} {count : Number} {inner : Bool} {origin : Int}
    (operates : (Item.operate { scene with selecting := true } rules count pure).Endless origin) :
    (resolve scene rules count inner).Endless origin :=
  (Act.yields_cursor origin).bind_endless (operates.bind _)

lemma ofEnds_comm (scene : Scene) (inner : Bool) (mark destination : Int) :
    ofEnds scene inner mark destination = ofEnds scene inner destination mark := by
  rw [ofEnds, ofEnds, Int.min_comm, Int.max_comm]

lemma ofEnds_outer {scene : Scene} {mark destination : Int} (h : mark ≤ destination) :
    ofEnds scene false mark destination = outer scene.document mark destination := by
  rw [ofEnds]
  simp only [Int.min_eq_left h, Int.max_eq_right h, Bool.false_eq_true, if_false]

lemma ofEnds_inner {scene : Scene}
    (drops : scene.settings.innerKeepsLastLine.contains scene.document.language = false) {start stop : Int}
    (h : start ≤ stop) : ofEnds scene true start stop = between scene.document false start stop := by
  simp only [ofEnds, if_true, drops]
  rw [Int.min_eq_left h, Int.max_eq_right h]

variable {doc : Document}

lemma between_sameLine (keeps : Bool) {start p : Nat} (hsp : start ≤ p) (hp : p < doc.length)
    (hl : doc.lineAt start = doc.lineAt p) :
    between doc keeps start (p + 1) = ⟨(start : Int) + 1, max (p : Int) (start + 1), true⟩ := by
  have hs : doc.text.settle ((start : Int) + 1) = (start : Int) + 1 :=
    Text.settle_of_mem (by omega) (show (start : Int) + 1 ≤ (doc.length : Int) by omega)
  have hq : doc.text.settle (p : Int) = (p : Int) :=
    Text.settle_of_mem (by omega) (show (p : Int) ≤ (doc.length : Int) by omega)
  have he : (doc.lineStart start == doc.lineStart p) = true := by rw [lineStart_eq_iff.mpr hl, beq_self_eq_true]
  have hf : min ((start : Int) + 1) (p + 1) = start + 1 := Int.min_eq_left (by omega)
  rw [between, if_neg (by omega), Int.add_sub_cancel, he, if_pos rfl, hs, hq]
  simp only [hf]

lemma between_below (keeps : Bool) {start p : Nat} (hp : p < doc.length) (hl : doc.lineAt start < doc.lineAt p) :
    between doc keeps start (p + 1) = ⟨doc.startOfLine (doc.lineAt start + 1),
      max (if keeps then (p : Int) + 1 else doc.endOfLine (doc.lineAt p - 1))
        (doc.startOfLine (doc.lineAt start + 1)), true⟩ := by
  have hsp := lt_of_lineAt_lt hl
  have hne : (doc.lineStart start == doc.lineStart p) = false := by
    apply beq_false_of_ne
    rw [Ne, lineStart_eq_iff]
    omega
  obtain ⟨before, _⟩ := lineEnd_before (Nat.le_of_lt hp) (Nat.lt_of_le_of_lt (Nat.zero_le _) hl)
  rw [between, if_neg (by omega), Int.add_sub_cancel, hne, if_neg Bool.false_ne_true, nextLineStart_eq, before]

lemma between_lines (keeps : Bool) {start p : Nat} (hp : p < doc.length) (hl : doc.lineAt start < doc.lineAt p) :
    ∃ last : Int, between doc keeps start (p + 1) = ⟨doc.startOfLine (doc.lineAt start + 1), last, true⟩ ∧
      doc.startOfLine (doc.lineAt start + 1) ≤ last ∧ last ≤ p + 1 ∧ (keeps = false → last ≤ p) := by
  have hlast := doc.lineAt_lt_lineCount p
  have hfirst : doc.startOfLine (doc.lineAt start + 1) ≤ p :=
    (startOfLine_le_iff (by omega) (Nat.le_of_lt hp)).mpr hl
  obtain ⟨_, hle⟩ := lineEnd_before (Nat.le_of_lt hp) (Nat.lt_of_le_of_lt (Nat.zero_le _) hl)
  rw [between_below keeps hp hl]
  cases keeps with
  | true => exact ⟨_, rfl, Int.le_max_right _ _, Int.max_le.mpr ⟨Int.le_refl _, by omega⟩, by simp⟩
  | false =>
    have hm := Int.max_le.mpr ⟨Int.ofNat_le.mpr hle, Int.ofNat_le.mpr hfirst⟩
    exact ⟨_, rfl, Int.le_max_right _ _, Int.le_trans hm (by omega), fun _ => hm⟩

lemma between_bounds (keeps : Bool) {start stop : Nat} (hs : start ≤ stop) (hl : stop ≤ doc.length) :
    ∃ first last : Int, between doc keeps start stop = ⟨first, last, true⟩ ∧ start ≤ first ∧
      first ≤ last ∧ last ≤ stop := by
  rcases Nat.eq_or_lt_of_le hs with rfl | hlt
  · refine ⟨start, start, ?_, Int.le_refl _, Int.le_refl _, Int.le_refl _⟩
    rw [between, if_pos (Int.le_refl _)]
  · obtain ⟨p, rfl⟩ := Nat.exists_eq_add_one_of_ne_zero (Nat.ne_zero_of_lt hlt)
    have hm : doc.lineAt start ≤ doc.lineAt p := lineAt_mono (by omega)
    rcases Nat.eq_or_lt_of_le hm with hline | hline
    · exact ⟨_, _, between_sameLine keeps (Nat.le_of_lt_succ hlt) hl hline, by omega, by omega, by omega⟩
    · obtain ⟨last, hb, hfirst, hlast, _⟩ := between_lines keeps hl hline
      have hlow : start < doc.startOfLine (doc.lineAt start + 1) := by
        apply Nat.lt_of_not_le
        intro hle
        have hcount := doc.lineAt_lt_lineCount p
        have hover := (startOfLine_le_iff (by omega) (by omega)).mp hle
        omega
      exact ⟨_, last, hb, by omega, hfirst, hlast⟩

lemma outer_bounds {start : Nat} (stop : Int) (hs : start ≤ doc.length) :
    ∃ first : Nat, outer doc start stop = ⟨first, stop, false⟩ ∧ first ≤ start := by
  rw [outer]
  split
  · exact ⟨_, rfl, startOfLine_lineAt_le hs⟩
  · exact ⟨start, rfl, Nat.le_refl _⟩

end Region

end Counterpart
