import Counterpart.Block.Jump
import Counterpart.Proofs.Act
import Counterpart.Proofs.Block.Search
import Counterpart.Proofs.Document.Lines
import Mathlib.Data.Fintype.Pigeonhole
import Mathlib.Logic.Function.Iterate

namespace Counterpart

structure Course where
  left : Nat
  tag : KeywordTag
  reached : Option Nat := none
deriving DecidableEq, Repr

namespace Course

def follow (blocks : List Block) (scene : Scene) (tag : KeywordTag) (reached : Option Nat) :
    (hops : Nat) → Course
  | 0 => ⟨0, tag, reached⟩
  | hops + 1 =>
    match tag.partner? blocks scene with
    | none => ⟨hops + 1, tag, reached⟩
    | some (line, keyword) => follow blocks scene (.ofLine scene.document line keyword) (some line) hops

def destination? (scene : Scene) (origin : KeywordTag) (course : Course) : Option Int :=
  course.reached.map fun line =>
    let content := scene.document.contentOfLine line
    if scene.selecting && course.tag.keyword.role = .closing && origin.offset < content then
      scene.document.endOfLine line
    else content

end Course

lemma Course.follow_stuck {blocks : List Block} {scene : Scene} {tag : KeywordTag}
    (stuck : tag.partner? blocks scene = none) (reached : Option Nat) (hops : Nat) :
    follow blocks scene tag reached hops = ⟨hops, tag, reached⟩ := by
  cases hops with
  | zero => rfl
  | succ hops => rw [follow, stuck]

namespace Block

def roleOfLine? (blocks : List Block) (scene : Scene) (line : Nat) : Option Role :=
  (keywordOfLine? blocks scene line).map LineKeyword.role

def tagOfLine? (blocks : List Block) (scene : Scene) (line : Nat) : Option KeywordTag :=
  (keywordOfLine? blocks scene line).map (KeywordTag.ofLine scene.document line)

def counterpartLine? (blocks : List Block) (scene : Scene) (line : Nat) : Option Nat :=
  (tagOfLine? blocks scene line).bind fun tag => (tag.partner? blocks scene).map Prod.fst

variable {blocks : List Block} {scene : Scene}

lemma exists_tag_of_role {line : Nat} {role : Role} (h : roleOfLine? blocks scene line = some role) :
    ∃ tag, tagOfLine? blocks scene line = some tag := by
  obtain ⟨keyword, hk, _⟩ := Option.map_eq_some_iff.mp h
  exact ⟨_, by rw [tagOfLine?, hk, Option.map_some]⟩

lemma lt_lineCount_of_keyword {line : Nat} {keyword : LineKeyword}
    (h : keywordOfLine? blocks scene line = some keyword) : line < scene.document.lineCount := by
  apply Nat.lt_of_not_le
  intro hle
  obtain ⟨hc, he⟩ := Document.contentOfLine_of_le hle
  simp [keywordOfLine?, hc, he] at h

lemma content_lt_of_keyword {line : Nat} {keyword : LineKeyword}
    (h : keywordOfLine? blocks scene line = some keyword) :
    scene.document.contentOfLine line < scene.document.endOfLine line := by
  have bounds := Document.contentOfLine_bounds (lt_lineCount_of_keyword h)
  rw [keywordOfLine?] at h
  have hne : scene.document.contentOfLine line ≠ scene.document.endOfLine line := by
    intro he
    simp [he] at h
  omega

lemma inCode_of_keyword {line : Nat} {keyword : LineKeyword}
    (h : keywordOfLine? blocks scene line = some keyword) :
    scene.inCode (scene.document.contentOfLine line) = true := by
  by_contra hc
  simp [keywordOfLine?, hc] at h

lemma exists_last_of_keyword {line : Nat} {keyword : LineKeyword}
    (h : keywordOfLine? blocks scene line = some keyword) :
    ∃ last, scene.document.endOfLine line = last + 1 ∧ scene.document.contentOfLine line ≤ last ∧
      scene.document.lineAt last = line := by
  have hl := lt_lineCount_of_keyword h
  have hlt := content_lt_of_keyword h
  obtain ⟨hs, _⟩ := Document.contentOfLine_bounds hl
  obtain ⟨_, hline, hb⟩ := Document.startOfLine_le_endOfLine hl
  obtain ⟨last, he⟩ := Nat.exists_eq_add_one_of_ne_zero (Nat.ne_zero_of_lt hlt)
  exact ⟨last, he, by omega, Document.lineAt_eq_of_le (by omega) (by omega) hb hline⟩

lemma partner?_ofLine {line : Nat} {keyword : LineKeyword} (h : keywordOfLine? blocks scene line = some keyword) :
    (KeywordTag.ofLine scene.document line keyword).partner? blocks scene =
      partnerOfLine? blocks scene line keyword := by
  have hl := Document.lineAt_contentOfLine (lt_lineCount_of_keyword h)
  simp only [KeywordTag.partner?, KeywordTag.ofLine, hl]

lemma counterpartLine?_eq_some_iff {line next : Nat} :
    counterpartLine? blocks scene line = some next ↔
      ∃ keyword found, keywordOfLine? blocks scene line = some keyword ∧
      partnerOfLine? blocks scene line keyword = some (next, found) := by
  rw [counterpartLine?, tagOfLine?]
  cases hk : keywordOfLine? blocks scene line with
  | none => simp
  | some keyword => simp [partner?_ofLine hk]

lemma keyword_of_partner {line next : Nat} {keyword found : LineKeyword}
    (h : partnerOfLine? blocks scene line keyword = some (next, found)) :
    keywordOfLine? blocks scene next = some found := by
  rw [partnerOfLine?] at h
  split at h
  all_goals
    obtain ⟨⟨d, found'⟩, hs, he⟩ := Option.map_eq_some_iff.mp h
    obtain ⟨rfl, rfl⟩ := Prod.mk.inj he
    exact (seek_sound hs).reads

lemma partner_above {line other : Nat} {keyword found : LineKeyword} (closing : keyword.role = .closing)
    (h : partnerOfLine? blocks scene line keyword = some (other, found)) :
    other < line ∧ found.role ≠ .closing := by
  rw [partnerOfLine?, if_pos closing] at h
  obtain ⟨⟨d, found'⟩, hs, he⟩ := Option.map_eq_some_iff.mp h
  obtain ⟨rfl, rfl⟩ := Prod.mk.inj he
  have stop := seek_sound hs
  have room := stop.lt
  exact ⟨by omega, stop.role⟩

lemma partner_below (extending : scene.selecting = true) {line other : Nat} {keyword found : LineKeyword}
    (opens : keyword.role ≠ .closing) (h : partnerOfLine? blocks scene line keyword = some (other, found)) :
    line < other ∧ found.role = .closing := by
  rw [partnerOfLine?, if_neg opens, extending] at h
  obtain ⟨⟨d, found'⟩, hs, he⟩ := Option.map_eq_some_iff.mp h
  obtain ⟨rfl, rfl⟩ := Prod.mk.inj he
  have stop := seek_sound hs
  refine ⟨by omega, ?_⟩
  cases hr : found'.role with
  | opening => exact absurd hr stop.role
  | middle => exact absurd (stop.pauses hr) (by decide)
  | closing => rfl

lemma follow_step {line next : Nat} {tag : KeywordTag} (ht : tagOfLine? blocks scene line = some tag)
    (h : counterpartLine? blocks scene line = some next) :
    ∃ after, tagOfLine? blocks scene next = some after ∧ ∀ reached hops,
      Course.follow blocks scene tag reached (hops + 1) = Course.follow blocks scene after (some next) hops := by
  obtain ⟨keyword, found, hk, hp⟩ := counterpartLine?_eq_some_iff.mp h
  obtain rfl : KeywordTag.ofLine scene.document line keyword = tag := by simpa [tagOfLine?, hk] using ht
  refine ⟨.ofLine scene.document next found, ?_, fun reached hops => ?_⟩
  · rw [tagOfLine?, keyword_of_partner hp, Option.map_some]
  · rw [Course.follow, partner?_ofLine hk, hp]

lemma follow_stop {line : Nat} {tag : KeywordTag} (ht : tagOfLine? blocks scene line = some tag)
    (h : counterpartLine? blocks scene line = none) (reached : Option Nat) (hops : Nat) :
    Course.follow blocks scene tag reached hops = ⟨hops, tag, reached⟩ := by
  rw [counterpartLine?, ht, Option.bind_some, Option.map_eq_none_iff] at h
  exact Course.follow_stuck h reached hops

def hop (blocks : List Block) (scene : Scene) (line : Nat) : Nat := (counterpartLine? blocks scene line).getD line

lemma hop_of_none {line : Nat} (h : counterpartLine? blocks scene line = none) : hop blocks scene line = line := by
  rw [hop, h, Option.getD_none]

lemma hop_of_some {line next : Nat} (h : counterpartLine? blocks scene line = some next) :
    hop blocks scene line = next := by
  rw [hop, h, Option.getD_some]

lemma reached_follow {line : Nat} {tag : KeywordTag} (ht : tagOfLine? blocks scene line = some tag) (hops : Nat) :
    (Course.follow blocks scene tag (some line) hops).reached = some ((hop blocks scene)^[hops] line) := by
  induction hops generalizing line tag with
  | zero => rfl
  | succ hops ih =>
    cases hc : counterpartLine? blocks scene line with
    | none => rw [follow_stop ht hc, Function.iterate_fixed (hop_of_none hc)]
    | some next =>
      obtain ⟨after, ha, hf⟩ := follow_step ht hc
      rw [hf, ih ha, Function.iterate_succ_apply, hop_of_some hc]

lemma reached_follow_none {line : Nat} {tag : KeywordTag} (ht : tagOfLine? blocks scene line = some tag)
    {hops : Nat} (h : 1 ≤ hops) :
    (Course.follow blocks scene tag none hops).reached =
      (counterpartLine? blocks scene line).map fun _ => (hop blocks scene)^[hops] line := by
  obtain ⟨further, rfl⟩ := Nat.exists_eq_add_one_of_ne_zero (Nat.ne_zero_of_lt h)
  cases hc : counterpartLine? blocks scene line with
  | none => rw [follow_stop ht hc, Option.map_none]
  | some next =>
    obtain ⟨after, ha, hf⟩ := follow_step ht hc
    rw [hf, reached_follow ha, Option.map_some, Function.iterate_succ_apply, hop_of_some hc]

lemma tagOfLine?_hop {line : Nat} {tag : KeywordTag} (ht : tagOfLine? blocks scene line = some tag) (hops : Nat) :
    ∃ after, tagOfLine? blocks scene ((hop blocks scene)^[hops] line) = some after := by
  induction hops with
  | zero => exact ⟨tag, ht⟩
  | succ hops ih =>
    obtain ⟨between, hb⟩ := ih
    rw [Function.iterate_succ_apply']
    cases hc : counterpartLine? blocks scene ((hop blocks scene)^[hops] line) with
    | none => exact ⟨between, by rw [hop_of_none hc, hb]⟩
    | some next =>
      obtain ⟨after, ha, _⟩ := follow_step hb hc
      exact ⟨after, by rw [hop_of_some hc, ha]⟩

lemma follow_along {path : Nat → Nat} {tag : KeywordTag} (ht : tagOfLine? blocks scene (path 0) = some tag)
    {hops : Nat}
    (steps : ∀ i < hops, counterpartLine? blocks scene (path i) = some (path (i + 1))) (rest : Nat) :
    ∃ last, tagOfLine? blocks scene (path hops) = some last ∧
      Course.follow blocks scene tag none (hops + rest) =
        Course.follow blocks scene last (if hops = 0 then none else some (path hops)) rest := by
  induction hops generalizing rest with
  | zero => exact ⟨tag, ht, by rw [Nat.zero_add, if_pos rfl]⟩
  | succ hops ih =>
    obtain ⟨between, hb, hf⟩ := ih (fun i hi => steps i (Nat.lt_succ_of_lt hi)) (rest + 1)
    obtain ⟨last, hl, hs⟩ := follow_step hb (steps hops (Nat.lt_succ_self hops))
    refine ⟨last, hl, ?_⟩
    rw [Nat.succ_add_eq_add_succ, hf, hs, if_neg (Nat.succ_ne_zero hops)]

section

variable {line other : Nat} {keyword found : LineKeyword}

lemma destination?_above (closing : keyword.role = .closing) (hk : keywordOfLine? blocks scene line = some keyword)
    (hp : partnerOfLine? blocks scene line keyword = some (other, found)) :
    let tag := KeywordTag.ofLine scene.document line keyword
    (Course.follow blocks scene tag none 1).destination? scene tag =
      some (scene.document.contentOfLine other : Int) := by
  obtain ⟨_, opens⟩ := partner_above closing hp
  intro tag
  rw [Course.follow, partner?_ofLine hk, hp]
  simp [Course.follow, Course.destination?, KeywordTag.ofLine, opens]

lemma destination?_below (extending : scene.selecting = true) (opens : keyword.role ≠ .closing)
    (hk : keywordOfLine? blocks scene line = some keyword)
    (hp : partnerOfLine? blocks scene line keyword = some (other, found)) :
    let tag := KeywordTag.ofLine scene.document line keyword
    (Course.follow blocks scene tag none 1).destination? scene tag =
      some (scene.document.endOfLine other : Int) := by
  obtain ⟨below, closes⟩ := partner_below extending opens hp
  intro tag
  have further : tag.offset < scene.document.contentOfLine other :=
    Int.ofNat_lt.mpr (Document.contentOfLine_lt below (lt_lineCount_of_keyword (keyword_of_partner hp)))
  rw [Course.follow, partner?_ofLine hk, hp]
  simp [Course.follow, Course.destination?, KeywordTag.ofLine, extending, closes, further]

end

lemma destination?_placing (placing : scene.selecting = false) (tag : KeywordTag) (course : Course) :
    course.destination? scene tag = course.reached.map fun line => (scene.document.contentOfLine line : Int) := by
  simp [Course.destination?, placing]

lemma contains_destination? {course : Course} {tag : KeywordTag} {destination : Int}
    (h : course.destination? scene tag = some destination) : scene.document.Contains destination := by
  obtain ⟨line, _, rfl⟩ := Option.map_eq_some_iff.mp h
  dsimp only
  split
  · exact Document.contains_natCast (Document.endOfLine_le_length line)
  · exact Document.contains_natCast (Document.contentOfLine_le_length line)

end Block

namespace Course

variable {blocks : List Block} {scene : Scene} {tag : KeywordTag} {reached : Option Nat} {hops : Nat}

lemma follow_add (whole : (follow blocks scene tag reached hops).left = 0) (further : Nat) :
    follow blocks scene tag reached (hops + further) =
      follow blocks scene (follow blocks scene tag reached hops).tag (follow blocks scene tag reached hops).reached
        further := by
  induction hops generalizing tag reached with
  | zero => rw [Nat.zero_add, follow]
  | succ hops ih =>
    rw [follow] at whole ⊢
    rw [Nat.succ_add, follow]
    cases partner : tag.partner? blocks scene with
    | none =>
      rw [partner] at whole
      contradiction
    | some found =>
      rw [partner] at whole
      exact ih whole

lemma left_follow (blocks : List Block) (scene : Scene) (tag : KeywordTag) (reached : Option Nat) (hops : Nat) :
    (follow blocks scene tag reached hops).left = (follow blocks scene tag none hops).left := by
  induction hops generalizing tag reached with
  | zero => rfl
  | succ hops ih =>
    rw [follow, follow]
    cases tag.partner? blocks scene with
    | none => rfl
    | some found => exact (ih _ _).trans (ih _ _).symm

variable (blocks scene tag) in
def BreaksOff : Prop := ∃ hops, 0 < (follow blocks scene tag none hops).left

lemma follow_of_stuck {n : Nat} (whole : (follow blocks scene tag none n).left = 0)
    (stuck : (follow blocks scene tag none n).tag.partner? blocks scene = none) (h : n ≤ hops) :
    follow blocks scene tag none hops =
      ⟨hops - n, (follow blocks scene tag none n).tag, (follow blocks scene tag none n).reached⟩ := by
  obtain ⟨further, rfl⟩ := Nat.exists_eq_add_of_le h
  rw [follow_add whole, follow_stuck stuck, Nat.add_sub_cancel_left]

lemma whole_succ_iff (whole : (follow blocks scene tag none hops).left = 0) :
    (follow blocks scene tag none (hops + 1)).left = 0 ↔
      (follow blocks scene tag none hops).tag.partner? blocks scene ≠ none := by
  rw [follow_add whole, follow]
  cases (follow blocks scene tag none hops).tag.partner? blocks scene with
  | none => simp
  | some found => simp [follow]

lemma follow_succ (whole : (follow blocks scene tag none hops).left = 0) {line : Nat} {keyword : LineKeyword}
    (partner : (follow blocks scene tag none hops).tag.partner? blocks scene = some (line, keyword)) :
    follow blocks scene tag none (hops + 1) = ⟨0, .ofLine scene.document line keyword, some line⟩ := by
  rw [follow_add whole, follow, partner]
  rfl

lemma exists_stuck (h : 0 < (follow blocks scene tag none hops).left) :
    ∃ n < hops, (follow blocks scene tag none n).left = 0 ∧
      (follow blocks scene tag none n).tag.partner? blocks scene = none := by
  induction hops with
  | zero => simp [follow] at h
  | succ hops ih =>
    rcases Nat.eq_zero_or_pos (follow blocks scene tag none hops).left with whole | broken
    · refine ⟨hops, Nat.lt_succ_self hops, whole, ?_⟩
      by_contra going
      rw [(whole_succ_iff whole).mpr going] at h
      exact Nat.lt_irrefl 0 h
    · obtain ⟨n, hn, whole, stuck⟩ := ih broken
      exact ⟨n, Nat.lt_succ_of_lt hn, whole, stuck⟩

lemma whole_of_le {n : Nat} (whole : (follow blocks scene tag none n).left = 0) (h : hops ≤ n) :
    (follow blocks scene tag none hops).left = 0 := by
  by_contra broken
  obtain ⟨m, hm, left, stuck⟩ := exists_stuck (Nat.pos_of_ne_zero broken)
  rw [follow_of_stuck left stuck (by omega)] at whole
  have none_left : n - m = 0 := whole
  omega

lemma keyword_of_follow {line : Nat}
    (known : ∀ l ∈ reached, ∃ keyword, Block.keywordOfLine? blocks scene l = some keyword)
    (h : (follow blocks scene tag reached hops).reached = some line) :
    ∃ keyword, Block.keywordOfLine? blocks scene line = some keyword := by
  induction hops generalizing tag reached with
  | zero => exact known line h
  | succ hops ih =>
    rw [follow] at h
    cases partner : tag.partner? blocks scene with
    | none =>
      rw [partner] at h
      exact known line h
    | some found =>
      rw [partner] at h
      refine ih ?_ h
      rintro l ⟨⟩
      exact ⟨_, Block.keyword_of_partner partner⟩

lemma whole_of_round {a b : Nat} (h : a < b) (whole : (follow blocks scene tag none b).left = 0)
    (round : follow blocks scene tag none a = follow blocks scene tag none b) (n : Nat) :
    (follow blocks scene tag none n).left = 0 := by
  induction n using Nat.strongRecOn with
  | ind n ih =>
    rcases Nat.le_total n b with before | behind
    · exact whole_of_le whole before
    · obtain ⟨further, rfl⟩ := Nat.exists_eq_add_of_le behind
      -- What follows on the round follows on its beginning as well, with fewer hops.
      rw [follow_add whole, ← round, ← follow_add (whole_of_le whole (Nat.le_of_lt h))]
      exact ih _ (by omega)

lemma broken_alike {m n : Nat} (hm : 0 < (follow blocks scene tag none m).left)
    (hn : 0 < (follow blocks scene tag none n).left) :
    (follow blocks scene tag none m).tag = (follow blocks scene tag none n).tag ∧
      (follow blocks scene tag none m).reached = (follow blocks scene tag none n).reached := by
  obtain ⟨k, before, whole, stuck⟩ := exists_stuck hm
  have order : k ≤ n := by
    by_contra beyond
    exact Nat.ne_of_gt hn (whole_of_le whole (by omega))
  rw [follow_of_stuck whole stuck (Nat.le_of_lt before), follow_of_stuck whole stuck order]
  exact ⟨rfl, rfl⟩

lemma destination?_of_broken {m n : Nat} (hm : 0 < (follow blocks scene tag none m).left)
    (hn : 0 < (follow blocks scene tag none n).left) (origin : KeywordTag) :
    (follow blocks scene tag none m).destination? scene origin =
      (follow blocks scene tag none n).destination? scene origin := by
  obtain ⟨tags, reached⟩ := broken_alike hm hn
  rw [destination?, destination?, tags, reached]

lemma exists_line (whole : (follow blocks scene tag none (hops + 1)).left = 0) :
    ∃ line < scene.document.lineCount, ∃ keyword, Block.keywordOfLine? blocks scene line = some keyword ∧
      follow blocks scene tag none (hops + 1) = ⟨0, .ofLine scene.document line keyword, some line⟩ := by
  have before := whole_of_le whole (Nat.le_succ hops)
  obtain ⟨⟨line, keyword⟩, partner⟩ := Option.ne_none_iff_exists'.mp ((whole_succ_iff before).mp whole)
  have reads := Block.keyword_of_partner partner
  exact ⟨line, Block.lt_lineCount_of_keyword reads, keyword, reads, follow_succ before partner⟩

lemma broken_of_breaksOff (h : BreaksOff blocks scene tag) :
    0 < (follow blocks scene tag none (scene.document.lineCount + 1)).left := by
  rw [Nat.pos_iff_ne_zero]
  intro whole
  have lines : ∀ i : Fin (scene.document.lineCount + 1), ∃ line : Fin scene.document.lineCount, ∃ keyword,
      Block.keywordOfLine? blocks scene line = some keyword ∧
      follow blocks scene tag none (i + 1) = ⟨0, .ofLine scene.document line keyword, some (line : Nat)⟩ := by
    intro i
    obtain ⟨line, inside, rest⟩ := exists_line (whole_of_le whole (show (i : Nat) + 1 ≤ _ by omega))
    exact ⟨⟨line, inside⟩, rest⟩
  choose line keyword reads visits using lines
  -- More lines are come to than there are, so one of them is come to twice.
  obtain ⟨i, j, apart, same⟩ := Fintype.exists_ne_map_eq_of_card_lt line (by simp)
  have round : follow blocks scene tag none (i + 1) = follow blocks scene tag none (j + 1) := by
    have keywords : keyword i = keyword j := Option.some.inj ((reads i).symm.trans (same ▸ reads j))
    rw [visits, visits, same, keywords]
  have all : ∀ n, (follow blocks scene tag none n).left = 0 := by
    rcases Nat.lt_or_gt_of_ne (Fin.val_ne_of_ne apart) with less | more
    · exact whole_of_round (Nat.succ_lt_succ less) (whole_of_le whole (by omega)) round
    · exact whole_of_round (Nat.succ_lt_succ more) (whole_of_le whole (by omega)) round.symm
  obtain ⟨hops, broken⟩ := h
  exact Nat.ne_of_gt broken (all hops)

lemma broken_of_le (breaks : BreaksOff blocks scene tag) (h : scene.document.lineCount + 1 ≤ hops) :
    0 < (follow blocks scene tag none hops).left := by
  by_contra whole
  exact Nat.ne_of_gt (broken_of_breaksOff breaks) (whole_of_le (Nat.eq_zero_of_not_pos whole) h)

lemma follow_settings (blocks : List Block) (scene : Scene) (settings : Settings) (tag : KeywordTag)
    (reached : Option Nat) (hops : Nat) :
    follow blocks { scene with settings := settings } tag reached hops = follow blocks scene tag reached hops := by
  induction hops generalizing tag reached with
  | zero => rfl
  | succ hops ih =>
    have partners : tag.partner? blocks { scene with settings := settings } = tag.partner? blocks scene := rfl
    rw [follow, follow, partners]
    cases tag.partner? blocks scene with
    | none => rfl
    | some partner => exact ih _ _

end Course

namespace Block

variable {blocks : List Block} {scene : Scene} {tag : KeywordTag}

lemma breaksOff_iff {line : Nat} (ht : tagOfLine? blocks scene line = some tag) :
    Course.BreaksOff blocks scene tag ↔ ∃ k,
      counterpartLine? blocks scene ((hop blocks scene)^[k] line) = none := by
  constructor
  · rintro ⟨hops, broken⟩
    induction hops generalizing line tag with
    | zero => contradiction
    | succ hops ih =>
      cases hc : counterpartLine? blocks scene line with
      | none => exact ⟨0, hc⟩
      | some next =>
        obtain ⟨after, ha, hf⟩ := follow_step ht hc
        rw [hf, Course.left_follow] at broken
        obtain ⟨k, hk⟩ := ih ha broken
        exact ⟨k + 1, by rwa [Function.iterate_succ_apply, hop_of_some hc]⟩
  · rintro ⟨k, hk⟩
    induction k generalizing line tag with
    | zero => exact ⟨1, by rw [follow_stop ht hk]; exact Nat.one_pos⟩
    | succ k ih =>
      cases hc : counterpartLine? blocks scene line with
      | none => exact ⟨1, by rw [follow_stop ht hc]; exact Nat.one_pos⟩
      | some next =>
        obtain ⟨after, ha, hf⟩ := follow_step ht hc
        rw [Function.iterate_succ_apply, hop_of_some hc] at hk
        obtain ⟨hops, broken⟩ := ih ha hk
        exact ⟨hops + 1, by rwa [hf, Course.left_follow]⟩

lemma breaksOff_hop {line m : Nat} {after : KeywordTag} (ht : tagOfLine? blocks scene line = some tag)
    (ha : tagOfLine? blocks scene ((hop blocks scene)^[m] line) = some after)
    (breaks : Course.BreaksOff blocks scene tag) : Course.BreaksOff blocks scene after := by
  obtain ⟨k, hk⟩ := (breaksOff_iff ht).mp breaks
  refine (breaksOff_iff ha).mpr ⟨k, ?_⟩
  rwa [← Function.iterate_add_apply, Nat.add_comm, Function.iterate_add_apply,
    Function.iterate_fixed (hop_of_none hk)]

end Block

end Counterpart
