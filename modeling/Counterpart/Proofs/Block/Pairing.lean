import Counterpart.Proofs.Bracket.Nesting
import Counterpart.Proofs.Block.Course
import Counterpart.Block.Builtin

namespace Counterpart

namespace Block

open Counterpart.Bracket Delimiter

variable {blocks : List Block} {scene : Scene}

lemma partnerOfLine?_opening (selecting : scene.selecting = true) {line c : Nat} {keyword found : LineKeyword}
    (hk : keywordOfLine? blocks scene line = some keyword) (hr : keyword.role = .opening) :
    partnerOfLine? blocks scene line keyword = some (c, found) ↔
      Paired (brackets keyword.block (keywordOfLine? blocks scene)) line c ∧
        keywordOfLine? blocks scene c = some found := by
  have hline : brackets keyword.block (keywordOfLine? blocks scene) line = some ⟨.round, true⟩ := by
    rw [brackets_eq hk]
    simp [LineKeyword.bracket?, hr]
  have hplace : ∀ e, line + 1 + e = line + (e + 1) := by omega
  rw [partnerOfLine?, if_neg (by rw [hr]; decide), selecting]
  simp only [hplace]
  refine (seek_map_eq_some_iff (line + ·) hline found).trans (and_congr_left fun hf => ?_)
  rw [balanced_map_opening _ hline]
  refine ⟨And.right, fun hpair => ⟨?_, hpair⟩⟩
  have hlt := hpair.1
  have hc := lt_lineCount_of_keyword hf
  omega

lemma brackets_eq_some_iff {number place : Nat} {read : Nat → Option LineKeyword} {s : Shape} {opening : Bool} :
    brackets number read place = some ⟨s, opening⟩ ↔
      s = .round ∧ read place = some ⟨number, if opening then .opening else .closing⟩ := by
  cases hr : read place with
  | none => simp [brackets, hr]
  | some keyword =>
    obtain ⟨block, role⟩ := keyword
    rw [brackets_eq hr]
    by_cases hb : block = number
    · cases role <;> cases opening <;> simp [LineKeyword.bracket?, hb, eq_comm]
    · simp [LineKeyword.bracket?, hb]

lemma ends_of_paired {number o c : Nat} {read : Nat → Option LineKeyword}
    (h : Paired (brackets number read) o c) :
    read o = some ⟨number, .opening⟩ ∧ read c = some ⟨number, .closing⟩ := by
  obtain ⟨_, s, ho, hc, _⟩ := h
  exact ⟨(brackets_eq_some_iff.mp ho).2, (brackets_eq_some_iff.mp hc).2⟩

lemma counterpartLine?_of_keyword {line other : Nat} {keyword : LineKeyword}
    (hk : keywordOfLine? blocks scene line = some keyword) :
    counterpartLine? blocks scene line = some other ↔
      ∃ found, partnerOfLine? blocks scene line keyword = some (other, found) := by
  rw [counterpartLine?_eq_some_iff]
  constructor
  · rintro ⟨keyword', found, hk', hp⟩
    obtain rfl := Option.some.inj (hk.symm.trans hk')
    exact ⟨found, hp⟩
  · rintro ⟨found, hp⟩
    exact ⟨keyword, found, hk, hp⟩

section

variable {o c number : Nat}

lemma counterpartLine?_opening (selecting : scene.selecting = true)
    (hk : keywordOfLine? blocks scene o = some ⟨number, .opening⟩) :
    counterpartLine? blocks scene o = some c ↔ Paired (brackets number (keywordOfLine? blocks scene)) o c := by
  simp only [counterpartLine?_of_keyword hk, partnerOfLine?_opening selecting hk rfl]
  constructor
  · rintro ⟨_, hp, _⟩
    exact hp
  · intro hp
    exact ⟨_, hp, (ends_of_paired hp).2⟩

lemma counterpartLine?_closing (hk : keywordOfLine? blocks scene c = some ⟨number, .closing⟩) :
    counterpartLine? blocks scene c = some o ↔ Paired (brackets number (keywordOfLine? blocks scene)) o c := by
  simp only [counterpartLine?_of_keyword hk, partnerOfLine?_closing hk rfl]
  constructor
  · rintro ⟨_, hp, _⟩
    exact hp
  · intro hp
    exact ⟨_, hp, (ends_of_paired hp).1⟩

lemma counterpart_of_paired (selecting : scene.selecting = true) {x y : Nat}
    (h : Paired (brackets number (keywordOfLine? blocks scene)) x y) :
    counterpartLine? blocks scene x = some y ∧ counterpartLine? blocks scene y = some x := by
  obtain ⟨hx, hy⟩ := ends_of_paired h
  exact ⟨(counterpartLine?_opening selecting hx).mpr h, (counterpartLine?_closing hy).mpr h⟩

lemma exists_paired_of_counterpart (selecting : scene.selecting = true) {line other : Nat}
    (ends : roleOfLine? blocks scene line ≠ some .middle) (h : counterpartLine? blocks scene line = some other) :
    ∃ number, Paired (brackets number (keywordOfLine? blocks scene)) (min line other) (max line other) := by
  obtain ⟨⟨number, role⟩, _, hk, _⟩ := counterpartLine?_eq_some_iff.mp h
  refine ⟨number, ?_⟩
  cases role with
  | opening =>
    have paired := (counterpartLine?_opening selecting hk).mp h
    rwa [Nat.min_eq_left (Nat.le_of_lt paired.1), Nat.max_eq_right (Nat.le_of_lt paired.1)]
  | middle => exact absurd (by rw [roleOfLine?, hk, Option.map_some]) ends
  | closing =>
    have paired := (counterpartLine?_closing hk).mp h
    rwa [Nat.min_eq_right (Nat.le_of_lt paired.1), Nat.max_eq_left (Nat.le_of_lt paired.1)]

lemma counterpart_within (selecting : scene.selecting = true)
    (h : Paired (brackets number (keywordOfLine? blocks scene)) o c) {x : Nat} (ho : o < x) (hc : x < c)
    {role : Role} (hx : keywordOfLine? blocks scene x = some ⟨number, role⟩) (counts : role ≠ .middle) :
    ∃ y, counterpartLine? blocks scene x = some y ∧ o < y ∧ y < c := by
  have hb : ∃ b, brackets number (keywordOfLine? blocks scene) x = some b := by
    cases role with
    | opening => exact ⟨⟨.round, true⟩, brackets_eq_some_iff.mpr ⟨rfl, hx⟩⟩
    | middle => contradiction
    | closing => exact ⟨⟨.round, false⟩, brackets_eq_some_iff.mpr ⟨rfl, hx⟩⟩
  obtain ⟨b, hb⟩ := hb
  obtain ⟨y, hoy, hyc, hp | hp⟩ := h.pairedWithin ho hc hb
  · exact ⟨y, (counterpart_of_paired selecting hp).1, hoy, hyc⟩
  · exact ⟨y, (counterpart_of_paired selecting hp).2, hoy, hyc⟩

end

/-- Opening and closing lines of a block find each other, and an opening or closing line between the two finds its
own partner there. -/
theorem opening_and_closing_lines_pair (blocks : List Block) (scene : Scene) (selecting : scene.selecting = true)
    (number o c : Nat) :
    let keyword := fun line => keywordOfLine? blocks scene line
    let partner := fun line => counterpartLine? blocks scene line
    (keyword o = some ⟨number, .opening⟩ →
      (partner o = some c ↔ keyword c = some ⟨number, .closing⟩ ∧ partner c = some o)) ∧
    (keyword c = some ⟨number, .closing⟩ →
      (partner c = some o ↔ keyword o = some ⟨number, .opening⟩ ∧ partner o = some c)) ∧
    (keyword o = some ⟨number, .opening⟩ → partner o = some c →
      ∀ x, o < x → x < c → ∀ role, keyword x = some ⟨number, role⟩ → role ≠ .middle →
        ∃ y, partner x = some y ∧ o < y ∧ y < c) := by
  intro keyword partner
  refine ⟨fun opens => ?_, fun closes => ?_, fun opens hp x ho hc role hx counts => ?_⟩
  · constructor
    · intro hp
      have paired := (counterpartLine?_opening selecting opens).mp hp
      exact ⟨(ends_of_paired paired).2, (counterpart_of_paired selecting paired).2⟩
    · rintro ⟨closes, hp⟩
      have paired := (counterpartLine?_closing closes).mp hp
      exact (counterpart_of_paired selecting paired).1
  · constructor
    · intro hp
      have paired := (counterpartLine?_closing closes).mp hp
      exact ⟨(ends_of_paired paired).1, (counterpart_of_paired selecting paired).1⟩
    · rintro ⟨opens, hp⟩
      have paired := (counterpartLine?_opening selecting opens).mp hp
      exact (counterpart_of_paired selecting paired).2
  · have paired := (counterpartLine?_opening selecting opens).mp hp
    exact counterpart_within selecting paired ho hc hx counts

theorem opening_and_closing_lines_pair_in_loop :
    let scene :=
      Scene.ofText (.ofString "while a; do\n  for b; do\n    # done\n  done\n  if c\n  else\n  fi\ndone")
        "shellscript" {} true
    scene.selecting = true ∧ keywordOfLine? shell scene 0 = some ⟨2, .opening⟩ ∧
      counterpartLine? shell scene 0 = some 7 ∧ counterpartLine? shell scene 7 = some 0 ∧
      ∃ y, counterpartLine? shell scene 3 = some y ∧ 0 < y ∧ y < 7 := by
  intro scene
  obtain ⟨opens, inner, first⟩ : keywordOfLine? shell scene 0 = some ⟨2, .opening⟩ ∧
      keywordOfLine? shell scene 3 = some ⟨2, .closing⟩ ∧ counterpartLine? shell scene 0 = some 7 := by
    decide +kernel
  obtain ⟨pairs, _, nests⟩ := opening_and_closing_lines_pair shell scene rfl 2 0 7
  exact ⟨rfl, opens, first, ((pairs opens).mp first).2,
    nests opens first 3 (by decide) (by decide) _ inner (by decide)⟩

end Block

end Counterpart
