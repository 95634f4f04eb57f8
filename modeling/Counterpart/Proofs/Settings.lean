import Counterpart.Settings.Reading
import Mathlib.Data.Rat.Defs
import Mathlib.Tactic.Lemma

namespace Counterpart

lemma Value.strings?_map (ss : List String) : strings? (ss.map string) = some ss := by
  induction ss with
  | nil => rfl
  | cons s ss ih => rw [List.map_cons, strings?, ih, Option.map_some]

namespace Settings

structure Valid (settings : Settings) : Prop where
  shortcut : settings.shortcut ≠ ""
  guard : ∃ n : Nat, settings.lineEndGuardOffset = .finite n

def stored (settings : Settings) : Source := [
  ("shortcut", .string settings.shortcut),
  ("percentageJump", .bool settings.percentageJump),
  ("alwaysSimpleJump", .bool settings.alwaysSimpleJump),
  ("simpleJumpLanguages", .list (settings.simpleJumpLanguages.map .string)),
  ("innerKeepsLastLine", .list (settings.innerKeepsLastLine.map .string)),
  ("lineEndGuardLanguages", .list (settings.lineEndGuardLanguages.map .string)),
  ("lineEndGuardOffset", .number settings.lineEndGuardOffset),
  ("debug", .bool settings.debug)]

section

variable {α : Type} {source : Source} {key : String} {standard : α} {accept : Value → Option α}

lemma pick_of_accepted {P : α → Prop} (usual : P standard)
    (accepted : ∀ value a, accept value = some a → P a) :
    P (pick source key standard accept).1 := by
  rw [pick]
  split
  · exact usual
  · split
    · exact usual
    · next ha => exact accepted _ _ ha

lemma pick_eq {value : Value} {a : α} (held : source.lookup key = some value) (accepted : accept value = some a) :
    pick source key standard accept = (a, []) := by
  rw [pick, held]
  simp only [accepted]

end

lemma key?_eq_some_iff {value : Value} {s : String} : key? value = some s ↔ value = .string s ∧ s ≠ "" := by
  cases value with
  | string t =>
    simp only [key?, String.isEmpty_iff, Option.ite_none_left_eq_some, Option.some.injEq, Value.string.injEq]
    constructor
    · rintro ⟨ht, rfl⟩
      exact ⟨rfl, ht⟩
    · rintro ⟨rfl, ht⟩
      exact ⟨ht, rfl⟩
  | _ => simp [key?]

lemma distance?_eq_some_iff {value : Value} {n : Number} :
    distance? value = some n ↔ value = .number n ∧ ∃ k : Nat, n = .finite k := by
  constructor
  · intro h
    unfold distance? at h
    split at h
    · next v =>
      obtain ⟨hv, hn⟩ := Option.ite_none_right_eq_some.mp h
      obtain rfl := Option.some.inj hn
      rw [Bool.and_eq_true, decide_eq_true_iff, decide_eq_true_iff] at hv
      obtain ⟨k, hk⟩ := Int.eq_ofNat_of_zero_le hv.2
      refine ⟨rfl, k, congrArg Number.finite ?_⟩
      rw [← Rat.coe_int_num_of_den_eq_one hv.1, hk]
      rfl
    · contradiction
  · rintro ⟨rfl, k, rfl⟩
    simp [distance?]

lemma valid_read (source : Source) : (read source).1.Valid where
  shortcut := by
    have accepted : ∀ value s, key? value = some s → s ≠ "" := fun value s hs => (key?_eq_some_iff.mp hs).2
    exact @pick_of_accepted String source "shortcut" "%" _ (· ≠ "") (by decide) accepted
  guard := by
    have accepted : ∀ value (n : Number), distance? value = some n → ∃ k : Nat, n = .finite k :=
      fun value n hn => (distance?_eq_some_iff.mp hn).2
    exact @pick_of_accepted Number source "lineEndGuardOffset" 1 _ (fun n => ∃ k : Nat, n = .finite k)
      ⟨1, rfl⟩ accepted

lemma Valid.read_stored {settings : Settings} (valid : settings.Valid) :
    read settings.stored = (settings, []) := by
  have shortcut : ∀ standard, pick settings.stored "shortcut" standard key? = (settings.shortcut, []) :=
    fun _ => pick_eq rfl (key?_eq_some_iff.mpr ⟨rfl, valid.shortcut⟩)
  have distance : ∀ standard, pick settings.stored "lineEndGuardOffset" standard distance? =
      (settings.lineEndGuardOffset, []) := fun _ => pick_eq rfl (distance?_eq_some_iff.mpr ⟨rfl, valid.guard⟩)
  have flag : ∀ key {b}, settings.stored.lookup key = some (.bool b) →
      ∀ standard, pick settings.stored key standard flag? = (b, []) := fun _ _ held _ => pick_eq held rfl
  have languages : ∀ key {ss}, settings.stored.lookup key = some (.list (ss.map .string)) →
      ∀ standard, pick settings.stored key standard languages? = (ss, []) :=
    fun _ _ held _ => pick_eq held (Value.strings?_map _)
  rw [read]
  simp only [shortcut, distance, flag "percentageJump" rfl, flag "alwaysSimpleJump" rfl, flag "debug" rfl,
    languages "simpleJumpLanguages" rfl, languages "innerKeepsLastLine" rfl, languages "lineEndGuardLanguages" rfl]
  rfl

end Settings

end Counterpart
