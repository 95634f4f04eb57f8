import Counterpart.Proofs.Block.Course
import Counterpart.Proofs.Loop
import Counterpart.Proofs.Number.Counting

/-! The loop of a counted jump: where it leaves is what the course of its hops says, and else it goes in a
circle. -/

namespace Counterpart

namespace Lap

def Shows (scene : Scene) (course : Course) (lap : Lap) : Prop :=
  lap.current = some course.tag ∧ lap.reached = course.reached.map scene.document.startOfLine

variable (blocks : List Block) (scene : Scene) (tag : KeywordTag)

def after (hops : Nat) : Lap :=
  let course := Course.follow blocks scene tag none hops
  ⟨.tally hops, some course.tag, course.reached.map scene.document.startOfLine⟩

variable {blocks scene tag} {count : Number} {hops : Nat}

lemma at?_startOfLine {line : Nat} {keyword : LineKeyword}
    (h : Block.keywordOfLine? blocks scene line = some keyword) :
    KeywordTag.at? blocks scene (scene.document.startOfLine line) =
      some (.ofLine scene.document line keyword) := by
  simp only [KeywordTag.at?, Document.lineAt_startOfLine (Block.lt_lineCount_of_keyword h), h, Option.map_some]

lemma step_after (whole : (Course.follow blocks scene tag none hops).left = 0) :
    step blocks scene count (after blocks scene tag hops) =
      if (Number.tally hops).less count = true ∧ (Course.follow blocks scene tag none (hops + 1)).left = 0 then
        .inl (after blocks scene tag (hops + 1))
      else .inr (after blocks scene tag hops) := by
  have goes := Course.whole_succ_iff whole
  cases counts : (Number.tally hops).less count with
  | false => simp [step, after, counts]
  | true =>
    cases partner : (Course.follow blocks scene tag none hops).tag.partner? blocks scene with
    | none =>
      rw [partner] at goes
      simp [step, after, counts, partner, goes]
    | some found =>
      obtain ⟨line, keyword⟩ := found
      have tagged := at?_startOfLine (Block.keyword_of_partner partner)
      simp [step, after, counts, partner, Course.follow_succ whole partner, tagged, Number.next_tally]

lemma exists_ends (whole : (Course.follow blocks scene tag none hops).left = 0) (further : Nat)
    (limit : (Number.tally (hops + further)).less count = false ∨
      0 < (Course.follow blocks scene tag none (hops + further + 1)).left) :
    ∃ trace last, Ends (step blocks scene count) (after blocks scene tag hops) trace last ∧
      trace.length ≤ further := by
  -- Over the hops that may still be made before the counter or the chain of partners stops the loop.
  induction further generalizing hops with
  | zero =>
    refine ⟨[], _, .leave ((step_after whole).trans (if_neg ?_)), Nat.le_refl 0⟩
    rintro ⟨counts, more⟩
    rw [Nat.add_zero, counts, more] at limit
    rcases limit with stops | broken <;> contradiction
  | succ further ih =>
    by_cases goes : (Number.tally hops).less count = true ∧
      (Course.follow blocks scene tag none (hops + 1)).left = 0
    · obtain ⟨trace, last, ends, short⟩ := ih goes.2 (by rwa [Nat.add_right_comm, Nat.add_assoc hops])
      exact ⟨_, last, .again ((step_after whole).trans (if_pos goes)) ends, Nat.succ_le_succ short⟩
    · exact ⟨[], _, .leave ((step_after whole).trans (if_neg goes)), Nat.zero_le _⟩

lemma exists_after {start last : Lap} {trace : List Lap} (ends : Ends (step blocks scene count) start trace last)
    (h : start = after blocks scene tag hops) (whole : (Course.follow blocks scene tag none hops).left = 0) :
    ∃ n, hops ≤ n ∧ last = after blocks scene tag n ∧ (Course.follow blocks scene tag none n).left = 0 ∧
      (∀ k, hops ≤ k → k < n → (Number.tally k).less count = true) ∧
      ((Number.tally n).less count = false ∨ 0 < (Course.follow blocks scene tag none (n + 1)).left) := by
  induction ends generalizing hops with
  | leave leaves =>
    subst h
    rw [step_after whole] at leaves
    split at leaves
    · contradiction
    · next stops =>
      refine ⟨hops, Nat.le_refl _, (Sum.inr.inj leaves).symm, whole, by omega, ?_⟩
      rw [not_and_or, Bool.not_eq_true, ← Ne, ← Nat.pos_iff_ne_zero] at stops
      exact stops
  | again goes_on ends ih =>
    subst h
    rw [step_after whole] at goes_on
    split at goes_on
    · next goes =>
      obtain ⟨n, hn, rest⟩ := ih (Sum.inl.inj goes_on).symm goes.2
      obtain ⟨hlast, left, counts, limit⟩ := rest
      refine ⟨n, by omega, hlast, left, fun k hk hkn => ?_, limit⟩
      rcases Nat.eq_or_lt_of_le hk with rfl | later
      · exact goes.1
      · exact counts k later hkn
    · contradiction

lemma first_eq (tag : KeywordTag) : first tag = after blocks scene tag 0 := by
  rw [after, Number.tally_zero]
  rfl

lemma exists_ends_of_limit (h : count.hops ≠ none ∨ Course.BreaksOff blocks scene tag) :
    ∃ trace last, Ends (step blocks scene count) (after blocks scene tag 0) trace last ∧
      trace.length ≤ count.hops.getD scene.document.lineCount := by
  apply exists_ends rfl
  rw [Nat.zero_add]
  cases hops : count.hops with
  | some limit => exact .inl (by simp [Number.less_tally_of_some hops])
  | none => exact .inr (Course.broken_of_breaksOff (h.resolve_left (not_not_intro hops)))

lemma run_of_ends {lap last : Lap} {trace : List Lap} (ends : Ends (step blocks scene count) lap trace last)
    {rounds : Nat} (short : trace.length < rounds) : run blocks scene count rounds lap = .ok last := by
  induction ends generalizing rounds with
  | leave leaves =>
    obtain ⟨rounds, rfl⟩ := Nat.exists_eq_add_one_of_ne_zero (Nat.ne_zero_of_lt short)
    rw [run, leaves]
  | again goes_on ends ih =>
    obtain ⟨rounds, rfl⟩ := Nat.exists_eq_add_one_of_ne_zero (Nat.ne_zero_of_lt short)
    rw [run, goes_on]
    exact ih (Nat.lt_of_succ_lt_succ short)

lemma ends_of_run {lap last : Lap} {rounds : Nat} (h : run blocks scene count rounds lap = .ok last) :
    ∃ trace, Ends (step blocks scene count) lap trace last := by
  induction rounds generalizing lap with
  | zero => contradiction
  | succ rounds ih =>
    rw [run] at h
    split at h
    · next next goes_on =>
      obtain ⟨trace, ends⟩ := ih h
      exact ⟨_, .again goes_on ends⟩
    · next last' leaves =>
      obtain rfl := Except.ok.inj h
      exact ⟨[], .leave leaves⟩

lemma run_cases (rounds : Nat) (lap : Lap) :
    (∃ last, run blocks scene count rounds lap = .ok last) ∨
    run blocks scene count rounds lap = .error .endless := by
  induction rounds generalizing lap with
  | zero => exact .inr rfl
  | succ rounds ih =>
    rw [run]
    split
    · exact ih _
    · exact .inl ⟨_, rfl⟩

lemma ends_iff : (∃ trace last, Ends (step blocks scene count) (first tag) trace last) ↔
    count.hops ≠ none ∨ Course.BreaksOff blocks scene tag := by
  rw [first_eq]
  constructor
  · rintro ⟨trace, last, ends⟩
    obtain ⟨n, _, _, _, _, stops | broken⟩ := exists_after ends rfl rfl
    · refine .inl fun unreachable => ?_
      rw [Number.less_tally_of_none unreachable] at stops
      contradiction
    · exact .inr ⟨n + 1, broken⟩
  · intro h
    obtain ⟨trace, last, ends, -⟩ := exists_ends_of_limit h
    exact ⟨trace, last, ends⟩

lemma shows_of_stuck {n : Nat} (whole : (Course.follow blocks scene tag none n).left = 0)
    (broken : 0 < (Course.follow blocks scene tag none (n + 1)).left) (h : n ≤ hops) :
    (after blocks scene tag n).Shows scene (Course.follow blocks scene tag none hops) := by
  have stuck : (Course.follow blocks scene tag none n).tag.partner? blocks scene = none := by
    by_contra going
    exact Nat.ne_of_gt broken ((Course.whole_succ_iff whole).mpr going)
  rw [Course.follow_of_stuck whole stuck h]
  exact ⟨rfl, rfl⟩

lemma shows_of_some {limit : Nat} (h : count.hops = some limit) {trace : List Lap} {last : Lap}
    (ends : Ends (step blocks scene count) (first tag) trace last) :
    last.Shows scene (Course.follow blocks scene tag none limit) := by
  rw [first_eq] at ends
  obtain ⟨n, _, rfl, whole, counts, stop⟩ := exists_after ends rfl rfl
  simp only [Number.less_tally_of_some h, decide_eq_true_iff, decide_eq_false_iff_not] at counts stop
  have order : n ≤ limit := by
    by_contra beyond
    exact Nat.lt_irrefl limit (counts limit (Nat.zero_le limit) (by omega))
  rcases stop with stops | broken
  · obtain rfl : n = limit := by omega
    exact ⟨rfl, rfl⟩
  · exact shows_of_stuck whole broken order

lemma shows_of_none (h : count.hops = none) {trace : List Lap} {last : Lap}
    (ends : Ends (step blocks scene count) (first tag) trace last) :
    last.Shows scene (Course.follow blocks scene tag none (scene.document.lineCount + 1)) := by
  rw [first_eq] at ends
  obtain ⟨n, _, rfl, whole, _, stops | broken⟩ := exists_after ends rfl rfl
  · rw [Number.less_tally_of_none h] at stops
    contradiction
  · refine shows_of_stuck whole broken ?_
    by_contra beyond
    have all := Course.broken_of_breaksOff ⟨n + 1, broken⟩
    exact Nat.ne_of_gt all (Course.whole_of_le whole (by omega))

lemma Shows.destination?_eq {last : Lap} {n : Nat}
    (shows : last.Shows scene (Course.follow blocks scene tag none n)) (origin : KeywordTag) :
    last.destination? scene origin = (Course.follow blocks scene tag none n).destination? scene origin := by
  obtain ⟨current, reached⟩ := shows
  rw [destination?, Course.destination?, current, reached, Option.map_map]
  refine Option.map_congr fun line hline => ?_
  obtain ⟨keyword, hk⟩ := Course.keyword_of_follow (by simp) hline
  have inside := Block.lt_lineCount_of_keyword hk
  simp [Document.firstNonBlank, Document.lineEnd, Document.lineAt_startOfLine inside,
    Document.lineAt_contentOfLine inside]

end Lap

namespace KeywordTag

variable {blocks : List Block} {scene : Scene} {tag : KeywordTag} {count : Number}

/-- The course of a counted jump. A count that is never reached makes more hops than there are lines. -/
def course (blocks : List Block) (scene : Scene) (tag : KeywordTag) (count : Number) : Except Halt Course :=
  match count.hops with
  | some hops => .ok (Course.follow blocks scene tag none hops)
  | none =>
    let course := Course.follow blocks scene tag none (scene.document.lineCount + 1)
    if course.left = 0 then .error .endless else .ok course

lemma lastLap_eq_ok_iff {last : Lap} : tag.lastLap blocks scene count = .ok last ↔
    ∃ trace, Ends (Lap.step blocks scene count) (.first tag) trace last := by
  constructor
  · exact Lap.ends_of_run
  · rintro ⟨trace, ends⟩
    obtain ⟨trace', last', ends', short⟩ := Lap.exists_ends_of_limit (Lap.ends_iff.mp ⟨trace, last, ends⟩)
    rw [← Lap.first_eq] at ends'
    obtain rfl := ends.unique ends'
    exact Lap.run_of_ends ends' (Nat.lt_succ_of_le short)

lemma course_of_some {hops : Nat} (h : count.hops = some hops) :
    tag.course blocks scene count = .ok (Course.follow blocks scene tag none hops) := by
  rw [course, h]

lemma course_of_breaksOff (h : count.hops = none) (breaks : Course.BreaksOff blocks scene tag) :
    tag.course blocks scene count = .ok (Course.follow blocks scene tag none (scene.document.lineCount + 1)) := by
  rw [course, h]
  exact if_neg (Nat.ne_of_gt (Course.broken_of_breaksOff breaks))

lemma course_endless (h : count.hops = none) (unbroken : ¬ Course.BreaksOff blocks scene tag) :
    tag.course blocks scene count = .error .endless := by
  rw [course, h]
  exact if_pos (Nat.eq_zero_of_not_pos fun broken => unbroken ⟨_, broken⟩)

lemma course_cases (blocks : List Block) (scene : Scene) (tag : KeywordTag) (count : Number) :
    (∃ hops, tag.course blocks scene count = .ok (Course.follow blocks scene tag none hops)) ∨
      count.hops = none ∧ tag.course blocks scene count = .error .endless := by
  cases h : count.hops with
  | some hops => exact .inl ⟨hops, course_of_some h⟩
  | none =>
    by_cases breaks : Course.BreaksOff blocks scene tag
    · exact .inl ⟨_, course_of_breaksOff h breaks⟩
    · exact .inr ⟨rfl, course_endless h breaks⟩

lemma lastLap_endless (h : count.hops = none) (unbroken : ¬ Course.BreaksOff blocks scene tag) :
    tag.lastLap blocks scene count = .error .endless := by
  refine (Lap.run_cases _ _).resolve_left ?_
  rintro ⟨last, run⟩
  obtain ⟨trace, ends⟩ := lastLap_eq_ok_iff.mp run
  exact (Lap.ends_iff.mp ⟨trace, last, ends⟩).elim (fun reachable => reachable h) unbroken

lemma shows_of_course {trace : List Lap} {last : Lap} {course : Course}
    (ends : Ends (Lap.step blocks scene count) (.first tag) trace last)
    (h : tag.course blocks scene count = .ok course) : last.Shows scene course := by
  cases limit : count.hops with
  | some hops =>
    rw [course_of_some limit] at h
    exact Except.ok.inj h ▸ Lap.shows_of_some limit ends
  | none =>
    by_cases breaks : Course.BreaksOff blocks scene tag
    · rw [course_of_breaksOff limit breaks] at h
      exact Except.ok.inj h ▸ Lap.shows_of_none limit ends
    · rw [course_endless limit breaks] at h
      contradiction

lemma course_of_error {halt : Halt} (h : tag.course blocks scene count = .error halt) :
    count.hops = none ∧ ¬ Course.BreaksOff blocks scene tag ∧ halt = .endless := by
  obtain ⟨hops, course⟩ | ⟨unreachable, endless⟩ := course_cases blocks scene tag count
  · cases h.symm.trans course
  · refine ⟨unreachable, fun breaks => ?_, Except.error.inj (h.symm.trans endless)⟩
    cases h.symm.trans (course_of_breaksOff unreachable breaks)

lemma exists_ends_of_course {course : Course} (h : tag.course blocks scene count = .ok course) :
    ∃ trace last, Ends (Lap.step blocks scene count) (.first tag) trace last := by
  refine Lap.ends_iff.mpr ?_
  by_contra stops
  obtain ⟨unreachable, unbroken⟩ := not_or.mp stops
  rw [course_endless (not_not.mp unreachable) unbroken] at h
  contradiction

lemma course_settings (blocks : List Block) (scene : Scene) (settings : Settings) (tag : KeywordTag)
    (count : Number) :
    tag.course blocks { scene with settings := settings } count = tag.course blocks scene count := by
  simp only [course, Course.follow_settings]

end KeywordTag

namespace Block

variable {blocks : List Block} {scene : Scene} {tag : KeywordTag} {count : Number}

lemma yields_jump_of_course {course : Course} (h : tag.course blocks scene count = .ok course) (origin : Int) :
    (tag.jump blocks scene count).Yields origin (course.destination? scene tag)
      ((course.destination? scene tag).getD origin) := by
  obtain ⟨trace, last, ends⟩ := KeywordTag.exists_ends_of_course h
  obtain ⟨hops, rfl⟩ : ∃ hops, course = Course.follow blocks scene tag none hops := by
    obtain ⟨hops, hc⟩ | ⟨_, hc⟩ := KeywordTag.course_cases blocks scene tag count
    · exact ⟨hops, Except.ok.inj (h.symm.trans hc)⟩
    · cases h.symm.trans hc
  rw [KeywordTag.jump, KeywordTag.lastLap_eq_ok_iff.mpr ⟨trace, ends⟩]
  dsimp only
  rw [(KeywordTag.shows_of_course ends h).destination?_eq]
  cases (Course.follow blocks scene tag none hops).destination? scene tag with
  | none => exact Act.yields_pure _ _
  | some destination => exact (Act.yields_moveTo _ _).bind (Act.yields_pure _ _)

lemma endless_jump_of_course {halt : Halt} (h : tag.course blocks scene count = .error halt) (origin : Int) :
    (tag.jump blocks scene count).Endless origin := by
  obtain ⟨unreachable, unbroken, _⟩ := KeywordTag.course_of_error h
  rw [KeywordTag.jump, KeywordTag.lastLap_endless unreachable unbroken]
  exact Act.endless_throw origin

lemma course_natCast (blocks : List Block) (scene : Scene) (tag : KeywordTag) {hops : Nat}
    (h : hops ≤ exactThreshold) :
    tag.course blocks scene (.finite hops) = .ok (Course.follow blocks scene tag none hops) :=
  KeywordTag.course_of_some (Number.hops_natCast h)

lemma exists_course {n : Nat} (h : n ≤ exactThreshold ∨ 0 < (Course.follow blocks scene tag none n).left) :
    ∃ course, tag.course blocks scene (.finite n) = .ok course ∧
      course.reached = (Course.follow blocks scene tag none n).reached ∧
      course.tag = (Course.follow blocks scene tag none n).tag := by
  rcases Nat.lt_or_ge exactThreshold n with beyond | reachable
  · have broken := h.resolve_left (Nat.not_le.mpr beyond)
    obtain ⟨tags, reached⟩ := Course.broken_alike (Course.broken_of_breaksOff ⟨n, broken⟩) broken
    exact ⟨_, KeywordTag.course_of_breaksOff (Number.hops_natCast_of_lt beyond) ⟨n, broken⟩, reached, tags⟩
  · exact ⟨_, course_natCast blocks scene tag reachable, rfl, rfl⟩

lemma yields_jump {n : Nat} {reached : Option Nat} (placing : scene.selecting = false)
    (h : n ≤ exactThreshold ∨ 0 < (Course.follow blocks scene tag none n).left)
    (hr : (Course.follow blocks scene tag none n).reached = reached) (origin : Int) :
    (tag.jump blocks scene (.finite n)).Yields origin (reached.map fun line => scene.document.contentOfLine line)
      (reached.elim origin fun line => scene.document.contentOfLine line) := by
  obtain ⟨course, hc, same, _⟩ := exists_course h
  have yields := yields_jump_of_course hc origin
  rw [destination?_placing placing, same, hr] at yields
  cases reached <;> exact yields

lemma endless_jump {n : Nat} (h : exactThreshold < n)
    (whole : ∀ hops, (Course.follow blocks scene tag none hops).left = 0) (origin : Int) :
    (tag.jump blocks scene (.finite n)).Endless origin := by
  have unbroken : ¬ Course.BreaksOff blocks scene tag :=
    fun ⟨hops, broken⟩ => Nat.ne_of_gt broken (whole hops)
  exact endless_jump_of_course (KeywordTag.course_endless (Number.hops_natCast_of_lt h) unbroken) origin

end Block

end Counterpart
