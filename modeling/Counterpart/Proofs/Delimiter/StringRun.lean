import Counterpart.Proofs.Delimiter.Quote
import Mathlib.Data.Nat.Find

namespace Counterpart

namespace Delimiter

structure StringRun (scene : Scene) (s e : Nat) : Prop where
  string : ∀ place : Int, s ≤ place → place < e → scene.inString place = true
  ahead : scene.inString ((s : Int) - 1) = false
  behind : scene.inString e = false

def Returns (scene : Scene) (o : Int) (result : Option Int) : Prop :=
  (simpleJump scene).Yields o result (result.getD o)

variable {scene : Scene}

lemma returns_iff (o : Int) (result : Option Int) : Returns scene o result ↔ landing? scene o = result := by
  have hy := yields_simpleJump scene o
  constructor
  · intro h
    exact (hy.unique h).1
  · rintro rfl
    exact hy

def RunsTo (scene : Scene) (o : Nat) (forward : Bool) (r : Nat) : Prop :=
  (∀ k ≤ r, scene.inString (placeAway o forward k) = true) ∧
    scene.inString (placeAway o forward (r + 1)) = false

lemma exists_runsTo {o m : Nat} {forward : Bool} (ho : scene.inString o = true)
    (out : scene.inString (placeAway o forward m) = false) : ∃ r < m, RunsTo scene o forward r := by
  have hex : ∃ m, scene.inString (placeAway o forward m) = false := ⟨m, out⟩
  have hpos : Nat.find hex ≠ 0 := by
    intro hz
    have h0 := Nat.find_spec hex
    rw [hz, placeAway_zero, ho] at h0
    contradiction
  have hsucc : Nat.find hex - 1 + 1 = Nat.find hex := by omega
  have hle : Nat.find hex ≤ m := Nat.find_min' hex out
  refine ⟨Nat.find hex - 1, by omega, fun k hk => ?_, ?_⟩
  · exact (Bool.not_eq_false _).mp (Nat.find_min hex (by omega))
  · rw [hsucc]
    exact Nat.find_spec hex

lemma otherQuote?_of_runsTo (alike : StringsAlike scene) {o r : Nat} {forward : Bool} {u : UInt16}
    (runs : RunsTo scene o forward r) (hr : forward = true ∨ r ≤ o) :
    otherQuote? scene o u forward = if scene.unit? (away o forward r) = some u then some r else none := by
  obtain ⟨string, out⟩ := runs
  have hs : scene.inString o = true := by rw [← placeAway_zero o forward, string 0 (Nat.zero_le r)]
  have last : ∀ d, otherQuote? scene o u forward = some d → d = r := by
    intro d hd
    obtain ⟨_, within, beyond, _⟩ := (otherQuote?_eq_some_iff alike hs).mp hd
    rcases Nat.lt_trichotomy d r with short | rfl | far
    · rw [string (d + 1) short] at beyond
      contradiction
    · rfl
    · rw [within (r + 1) (Nat.succ_pos r) far] at out
      contradiction
  split
  · next hu =>
    have hlt : away o forward r < scene.document.length := Document.lt_length_of_unit hu
    have hreach : r ≤ reach scene o forward := by
      cases forward with
      | true =>
        rw [away, if_pos rfl] at hlt
        rw [reach, if_pos rfl]
        omega
      | false =>
        rw [reach, if_neg Bool.false_ne_true]
        exact hr.resolve_left Bool.false_ne_true
    exact (otherQuote?_eq_some_iff alike hs).mpr ⟨hreach, fun k _ hk => string k hk, out, hu⟩
  · next hu =>
    rw [Option.eq_none_iff_forall_ne_some]
    intro d hd
    obtain rfl := last d hd
    exact hu ((otherQuote?_eq_some_iff alike hs).mp hd).2.2.2

section

variable (placing : scene.selecting = false) (unguarded : ∀ offset, scene.isGuarded offset = false)
  (alike : StringsAlike scene) {o : Nat} {u : UInt16} (hu : scene.unit? o = some u) (glyph : isQuoteGlyph u = true)
include placing unguarded alike hu glyph

lemma returns_of_runsTo {r : Nat} {forward : Bool} (facing : scene.inString ((o : Int) + 1) = forward)
    (runs : RunsTo scene o forward r) (hr : forward = true ∨ r ≤ o) {other : Nat}
    (hother : away o forward r = other) :
    Returns scene o (if scene.unit? other = some u then some (other : Int) else none) := by
  have hs : scene.inString o = true := by rw [← placeAway_zero o forward, runs.1 0 (Nat.zero_le r)]
  rw [returns_iff, landing?_quote placing unguarded alike hu glyph hs facing, otherQuote?_of_runsTo alike runs hr,
    hother]
  split
  · rw [Option.map_some, hother]
  · rfl

end

namespace StringRun

variable {s e x : Nat} (run : StringRun scene s e) (start_le : s ≤ x) (lt_end : x < e)
include run start_le lt_end

lemma runsTo_end : RunsTo scene x true (e - 1 - x) := by
  simp only [RunsTo, placeAway, if_true]
  refine ⟨fun k hk => run.string _ (by omega) (by omega), ?_⟩
  rw [show (x : Int) + (e - 1 - x + 1 : Nat) = e by omega]
  exact run.behind

lemma runsTo_start : RunsTo scene x false (x - s) := by
  simp only [RunsTo, placeAway, Bool.false_eq_true, if_false]
  refine ⟨fun k hk => run.string _ (by omega) (by omega), ?_⟩
  rw [show (x : Int) - (x - s + 1 : Nat) = s - 1 by omega]
  exact run.ahead

variable (placing : scene.selecting = false) (unguarded : ∀ offset, scene.isGuarded offset = false)
  (alike : StringsAlike scene) {u : UInt16} (hu : scene.unit? x = some u) (glyph : isQuoteGlyph u = true)
include placing unguarded alike hu glyph

lemma returns_forward (inner : x + 1 < e) :
    Returns scene x (if scene.unit? (e - 1 : Nat) = some u then some ((e - 1 : Nat) : Int) else none) := by
  have facing : scene.inString ((x : Int) + 1) = true := run.string _ (by omega) (by omega)
  have hp : away x true (e - 1 - x) = e - 1 := by
    rw [away, if_pos rfl]
    omega
  exact returns_of_runsTo placing unguarded alike hu glyph facing (run.runsTo_end start_le lt_end) (.inl rfl) hp

lemma returns_backward (last : x + 1 = e) :
    Returns scene x (if scene.unit? s = some u then some (s : Int) else none) := by
  have facing : scene.inString ((x : Int) + 1) = false := by
    rw [show (x : Int) + 1 = e by omega]
    exact run.behind
  have hp : away x false (x - s) = s := by
    rw [away, if_neg Bool.false_ne_true]
    omega
  exact returns_of_runsTo placing unguarded alike hu glyph facing (run.runsTo_start start_le lt_end)
    (.inr (Nat.sub_le x s)) hp

end StringRun

lemma exists_stringRun (text : Text) (language : String) (settings : Settings) (selecting : Bool) {x : Nat}
    (hx : (Scene.ofText text language settings selecting).inString x = true) :
    ∃ s e, StringRun (Scene.ofText text language settings selecting) s e ∧ s ≤ x ∧ x < e := by
  have outside : ∀ place : Int, place < 0 ∨ text.length ≤ place →
      (Scene.ofText text language settings selecting).inString place = false :=
    fun place h => Scene.inString_outside text language settings selecting place (Text.unit?_eq_none_iff.mpr h)
  -- Both walks leave the text at the latest, where no place is a string place.
  obtain ⟨q, _, ahead, behind⟩ := exists_runsTo hx
    (outside (placeAway x true text.length) (.inr (by rw [placeAway, if_pos rfl]; omega)))
  obtain ⟨r, hr, back, before⟩ := exists_runsTo hx
    (outside (placeAway x false (x + 1)) (.inl (by rw [placeAway, if_neg Bool.false_ne_true]; omega)))
  simp only [placeAway, if_true, Bool.false_eq_true, if_false] at ahead behind back before
  refine ⟨x - r, x + q + 1, ⟨fun place hs he => ?_, ?_, ?_⟩, Nat.sub_le x r, by omega⟩
  · rcases Int.le_total place x with hle | hge
    · have hp := back (x - place).toNat (by omega)
      rwa [show (x : Int) - ((x - place).toNat : Nat) = place by omega] at hp
    · have hp := ahead (place - x).toNat (by omega)
      rwa [show (x : Int) + ((place - x).toNat : Nat) = place by omega] at hp
  · rwa [show (x : Int) - (r + 1 : Nat) = (x - r : Nat) - 1 by omega] at before
  · exact behind

/-- From a quote glyph in a string, a jump leads to the last place of the run of string places, or from that
place to the first one, if the same glyph stands there, and nowhere else. Equal glyphs at both ends of a run
jump to each other. -/
theorem quote_jumps_to_end_of_run (text : Text) (language : String) (settings : Settings)
    (unguarded : settings.lineEndGuardLanguages.contains language = false) :
    let scene := Scene.ofText text language settings false
    (∀ (x : Nat) (quote : UInt16), text.units[x]? = some quote → isQuoteGlyph quote = true →
      scene.inString x = true →
        (∃ s e, StringRun scene s e ∧ s ≤ x ∧ x < e) ∧
        ∀ s e, StringRun scene s e → s ≤ x → x < e →
          (x < e - 1 → Returns scene x
            (if text.units[e - 1]? = some quote then some ((e - 1 : Nat) : Int) else none)) ∧
          (x = e - 1 → Returns scene x (if text.units[s]? = some quote then some (s : Int) else none))) ∧
    ∀ (s e : Nat) (quote : UInt16), StringRun scene s e → s + 2 ≤ e → isQuoteGlyph quote = true →
      text.units[s]? = some quote → text.units[e - 1]? = some quote →
        Returns scene s (some ((e - 1 : Nat) : Int)) ∧ Returns scene (e - 1 : Nat) (some (s : Int)) := by
  intro scene
  have hg : ∀ offset, scene.isGuarded offset = false := Scene.isGuarded_eq_false unguarded
  have alike : StringsAlike scene := stringsAlike_ofText text language settings false
  constructor
  · intro x quote hx glyph string
    refine ⟨exists_stringRun text language settings false string, fun s e run start_le lt_end => ?_⟩
    refine ⟨fun inner => ?_, fun last => ?_⟩
    · exact run.returns_forward start_le lt_end rfl hg alike hx glyph (by omega)
    · exact run.returns_backward start_le lt_end rfl hg alike hx glyph (by omega)
  · intro s e quote run two glyph opens closes
    have forward := run.returns_forward (Nat.le_refl s) (by omega) rfl hg alike opens glyph (by omega)
    have backward := run.returns_backward (x := e - 1) (by omega) (by omega) rfl hg alike closes glyph (by omega)
    rw [if_pos (show scene.unit? (e - 1 : Nat) = some quote from closes)] at forward
    rw [if_pos (show scene.unit? s = some quote from opens)] at backward
    exact ⟨forward, backward⟩

theorem quote_jumps_to_end_of_run_of_two :
    let scene := Scene.ofText (.ofString "\"a\"'b\"'\"c\"") "typescript" {} false
    StringRun scene 0 10 ∧ Returns scene 0 (some 9) ∧ Returns scene 3 none ∧ Returns scene 9 (some 0) := by
  intro scene
  have string : ∀ k : Nat, k < 10 → scene.inString k = true := by decide +kernel
  have run : StringRun scene 0 10 := by
    refine ⟨fun place hs he => ?_, by decide +kernel, by decide +kernel⟩
    obtain ⟨k, rfl⟩ := Int.eq_ofNat_of_zero_le hs
    exact string k (by omega)
  obtain ⟨jumps, both⟩ := quote_jumps_to_end_of_run (.ofString "\"a\"'b\"'\"c\"") "typescript" {} (by decide)
  obtain ⟨first, last⟩ := both 0 10 0x22 run (by decide) (by decide) (by decide +kernel) (by decide +kernel)
  have inner := ((jumps 3 0x27 (by decide +kernel) (by decide) (string 3 (by decide))).2 0 10 run (by decide)
    (by decide)).1 (by decide)
  have other : (Text.ofString "\"a\"'b\"'\"c\"").units[10 - 1]? ≠ some 0x27 := by decide +kernel
  rw [if_neg other] at inner
  exact ⟨run, first, inner, last⟩

end Delimiter

end Counterpart
