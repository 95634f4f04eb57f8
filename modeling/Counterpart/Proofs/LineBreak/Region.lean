import Counterpart.Proofs.LineBreak.Delimiter
import Counterpart.Proofs.Region.Between

namespace Counterpart

open Counterpart.Units

namespace Region

def widen (text : Text) (region : Region) : Region :=
  ⟨text.place region.start, text.place region.stop, region.inner⟩

variable {scene wide : Scene} (h : scene.Widens wide)
include h

lemma outer_place {start : Nat} (hs : start ≤ scene.document.length) (stop : Int) :
    outer wide.document (scene.document.text.place start) (scene.document.text.place stop) =
      (outer scene.document start stop).widen scene.document.text := by
  have hb := h.document.onlyBlanksBefore_place hs
  rw [← Text.place_natCast] at hb
  rw [outer, outer, hb, h.document.lineStart_place, ← Text.place_natCast, widen]
  simp only [apply_ite scene.document.text.place]

lemma between_place (keeps : Bool) {first last : Nat} (hle : first ≤ last) (starts : scene.SolidAt first)
    (ends : scene.SolidAt last) :
    between wide.document keeps (scene.document.text.place first) (scene.document.text.place ((last : Int) + 1)) =
      (between scene.document keeps first (last + 1)).widen scene.document.text := by
  have mono : Monotone scene.document.text.place := fun _ _ hab => (Text.place_le_place_iff _).mpr hab
  have natural := Text.place_natCast scene.document.text
  have next : ∀ {o : Nat}, scene.SolidAt o →
      scene.document.text.place ((o : Int) + 1) = (scene.document.text.toUnits.place o : Nat) + 1 := by
    intro o solid
    have hn := natural (o + 1)
    rw [solid.place_succ] at hn
    exact hn
  have line := fun o : Nat => h.document.lineAt_place o
  simp only [natural] at line
  have hl : scene.document.lineAt first ≤ scene.document.lineAt last := Document.lineAt_mono (by omega)
  rw [natural first, next ends]
  have hw : scene.document.text.toUnits.place last < wide.document.length := by
    obtain ⟨u, hu, solid⟩ := ends
    exact Document.lt_length_of_unit (h.unit?_place hu solid)
  rcases Nat.eq_or_lt_of_le hl with heq | hlt
  · have hp := (place_strictMono scene.document.text.toUnits).monotone hle
    rw [between_sameLine keeps hp hw (by rw [line, line, heq]), between_sameLine keeps hle ends.lt_length heq]
    rw [widen, next starts, mono.map_max, next starts, natural]
  · rw [between_below keeps hw (by rwa [line, line]), between_below keeps ends.lt_length hlt, line, line, widen,
      mono.map_max, apply_ite scene.document.text.place, next ends, natural, natural,
      h.document.startOfLine_eq, h.document.endOfLine_eq]

lemma ofEnds_place (inner : Bool) {mark destination : Int} (encloses : scene.Encloses mark destination) :
    ofEnds wide inner (scene.document.text.place mark) (scene.document.text.place destination) =
      (ofEnds scene inner mark destination).widen scene.document.text := by
  have forward : ∀ {first last : Nat}, first ≤ last → scene.SolidAt first → scene.SolidAt last →
      ofEnds wide inner (scene.document.text.place first) (scene.document.text.place ((last : Int) + 1)) =
        (ofEnds scene inner first (last + 1)).widen scene.document.text := by
    intro first last hle starts ends
    have order : (first : Int) ≤ last + 1 := by omega
    have hp := (Text.place_le_place_iff scene.document.text).mpr order
    rw [ofEnds, ofEnds, Int.min_eq_left order, Int.min_eq_left hp, Int.max_eq_right order, Int.max_eq_right hp]
    cases inner with
    | true =>
      simp only [if_true]
      rw [h.settings, h.document.language]
      exact between_place h _ hle starts ends
    | false => exact outer_place h (Nat.le_of_lt starts.lt_length) _
  obtain ⟨first, last, hle, starts, ends, ⟨rfl, rfl⟩ | ⟨rfl, rfl⟩⟩ := encloses
  · exact forward hle starts ends
  · rw [ofEnds_comm, ofEnds_comm scene]
    exact forward hle starts ends

end Region

end Counterpart
