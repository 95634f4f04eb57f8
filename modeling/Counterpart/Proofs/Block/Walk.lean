import Counterpart.Proofs.Block.Course
import Counterpart.Proofs.Loop
import Mathlib.Data.List.Nodup

/-! The search for a partner as a loop that goes from line to line: it ends at the partner and looks at no
line twice. -/

namespace Counterpart

namespace Block

def advance (doc : Document) (down : Bool) (start : Nat) : Option Nat :=
  if down then
    let next := doc.nextLineStart start
    if doc.length ≤ next then none else some next
  else if start = 0 then none
  else some (doc.lineStart ((start : Int) - 1))

def depthBehind? (number : Nat) (down selecting : Bool) (depth : Nat) : Option LineKeyword → Option Nat
  | none => some depth
  | some keyword =>
    if keyword.block ≠ number then some depth
    else if keyword.role = if down then .opening else .closing then some (depth + 1)
    else if keyword.role = .middle then if down && depth = 0 && !selecting then none else some depth
    else if depth = 0 then none
    else some (depth - 1)

structure Search where
  start : Nat
  depth : Nat

def Search.step (blocks : List Block) (scene : Scene) (number : Nat) (down : Bool) (search : Search) :
    Search ⊕ Option Nat :=
  match advance scene.document down search.start with
  | none => .inr none
  | some start =>
    let found := keywordOfLine? blocks scene (scene.document.lineAt start)
    match depthBehind? number down scene.selecting search.depth found with
    | none => .inr (some start)
    | some depth => .inl ⟨start, depth⟩

def linesPassed (doc : Document) (trace : List Search) (answer : Option Nat) : List Nat :=
  (trace.map Search.start ++ answer.toList).map fun start : Nat => doc.lineAt start

lemma seek_succ (number : Nat) (down selecting : Bool) (read : Nat → Option LineKeyword)
    (room distance depth : Nat) :
    let seek := seek number (if down then .opening else .closing) (down && !selecting) read
    seek (room + 1) distance depth =
      match depthBehind? number down selecting depth (read distance) with
      | none => (read distance).map fun keyword => (distance, keyword)
      | some depth => seek room (distance + 1) depth := by
  simp only [Block.seek]
  cases read distance with
  | none => rfl
  | some keyword =>
    simp only [depthBehind?, Option.map_some]
    by_cases other : keyword.block ≠ number
    · simp only [if_pos other]
    · simp only [if_neg other]
      by_cases enters : keyword.role = if down then .opening else .closing
      · simp only [if_pos enters]
      · simp only [if_neg enters]
        cases down <;> cases selecting <;> cases depth <;> by_cases middle : keyword.role = .middle <;>
          simp [middle]

variable {blocks : List Block} {scene : Scene} {number : Nat} {down : Bool}

lemma step_of_stuck {start : Nat} (h : advance scene.document down start = none) (depth : Nat) :
    Search.step blocks scene number down ⟨start, depth⟩ = .inr none := by
  simp only [Search.step, h]

lemma step_of_moved (blocks : List Block) (number : Nat) {start line : Nat}
    (inside : line < scene.document.lineCount)
    (h : advance scene.document down start = some (scene.document.startOfLine line)) (depth : Nat) :
    Search.step blocks scene number down ⟨start, depth⟩ =
      match depthBehind? number down scene.selecting depth (keywordOfLine? blocks scene line) with
      | none => .inr (some (scene.document.startOfLine line))
      | some depth => .inl ⟨scene.document.startOfLine line, depth⟩ := by
  simp only [Search.step, h, Document.lineAt_startOfLine inside]

structure Along (blocks : List Block) (scene : Scene) (down : Bool) (place : Nat → Nat) (distance room : Nat) :
    Prop where
  inside : ∀ d, distance ≤ d → d < distance + room → place (d + 1) < scene.document.lineCount
  moves : ∀ d, distance ≤ d → d < distance + room →
    advance scene.document down (scene.document.startOfLine (place d)) =
        some (scene.document.startOfLine (place (d + 1))) ∨
      d + 1 = distance + room ∧ advance scene.document down (scene.document.startOfLine (place d)) = none ∧
        keywordOfLine? blocks scene (place (d + 1)) = none
  stops : advance scene.document down (scene.document.startOfLine (place (distance + room))) = none

lemma Along.further {place : Nat → Nat} {distance room : Nat}
    (h : Along blocks scene down place distance (room + 1)) :
    Along blocks scene down place (distance + 1) room := by
  have sum : distance + 1 + room = distance + (room + 1) := by omega
  obtain ⟨inside, moves, stops⟩ := h
  constructor
  · exact fun d hd hr => inside d (by omega) (by omega)
  · rw [sum]
    exact fun d hd hr => moves d (by omega) hr
  · rwa [sum]

lemma ends_search {place : Nat → Nat} {room distance : Nat} (along : Along blocks scene down place distance room)
    (number depth : Nat) :
    let read := fun d => keywordOfLine? blocks scene (place (d + 1))
    let answer := (seek number (if down then .opening else .closing) (down && !scene.selecting) read
      room distance depth).map fun found => scene.document.startOfLine (place (found.1 + 1))
    ∃ trace,
      Ends (Search.step blocks scene number down) ⟨scene.document.startOfLine (place distance), depth⟩ trace
        answer ∧
      ∃ n ≤ room, linesPassed scene.document trace answer = (List.range' (distance + 1) n).map place := by
  intro read
  induction room generalizing distance depth with
  | zero => exact ⟨[], .leave (step_of_stuck along.stops depth), 0, Nat.le_refl 0, rfl⟩
  | succ room ih =>
    have inside := along.inside distance (Nat.le_refl _) (by omega)
    rcases along.moves distance (Nat.le_refl _) (by omega) with moved | ⟨last, stuck, blank⟩
    · have line := Document.lineAt_startOfLine inside
      have step : Search.step blocks scene number down ⟨scene.document.startOfLine (place distance), depth⟩ =
          match depthBehind? number down scene.selecting depth (read distance) with
          | none => .inr (some (scene.document.startOfLine (place (distance + 1))))
          | some depth => .inl ⟨scene.document.startOfLine (place (distance + 1)), depth⟩ :=
        step_of_moved blocks number inside moved depth
      rw [seek_succ]
      cases behind : depthBehind? number down scene.selecting depth (read distance) with
      | none =>
        rw [behind] at step
        cases found : read distance with
        | none =>
          rw [found] at behind
          contradiction
        | some keyword =>
          refine ⟨[], .leave step, 1, Nat.le_add_left 1 room, ?_⟩
          simp [linesPassed, line]
      | some further =>
        rw [behind] at step
        obtain ⟨trace, ends, n, hn, passed⟩ := ih along.further further
        refine ⟨_, .again step ends, n + 1, Nat.succ_le_succ hn, ?_⟩
        rw [List.range'_succ, List.map_cons, ← passed, linesPassed, linesPassed, List.map_cons, List.cons_append,
          List.map_cons, line]
    · obtain rfl : room = 0 := by omega
      change read distance = none at blank
      refine ⟨[], ?_, 0, Nat.zero_le 1, ?_⟩
      · rw [seek_succ, blank]
        exact .leave (step_of_stuck stuck depth)
      · rw [seek_succ, blank]
        rfl

lemma advance_down {doc : Document} {line : Nat} (inside : line < doc.lineCount) :
    advance doc true (doc.startOfLine line) =
      if doc.length ≤ doc.startOfLine (line + 1) then none else some (doc.startOfLine (line + 1)) := by
  rw [advance, if_pos rfl, Document.nextLineStart_startOfLine inside]

lemma advance_up_zero (doc : Document) : advance doc false (doc.startOfLine 0) = none := by
  rw [Document.startOfLine_zero]
  rfl

lemma advance_up_succ {doc : Document} {line : Nat} (inside : line + 1 < doc.lineCount) :
    advance doc false (doc.startOfLine (line + 1)) = some (doc.startOfLine line) := by
  obtain ⟨newline, hs, -⟩ := Document.startOfLine_succ inside
  have below : doc.startOfLine (line + 1) ≠ 0 := by omega
  rw [advance, if_neg Bool.false_ne_true, if_neg below, Document.lineStart_above inside]

lemma blank_of_startOfLine (blocks : List Block) {line : Nat} (inside : line < scene.document.lineCount)
    (h : scene.document.length ≤ scene.document.startOfLine line) :
    line + 1 = scene.document.lineCount ∧ keywordOfLine? blocks scene line = none := by
  have hs := Nat.le_antisymm (Document.startOfLine_le_length line) h
  constructor
  · have last := scene.document.lineAt_length
    rwa [← hs, Document.lineAt_startOfLine inside] at last
  · by_contra keyword
    obtain ⟨found, hk⟩ := Option.ne_none_iff_exists'.mp keyword
    have content := content_lt_of_keyword hk
    have low := (Document.contentOfLine_bounds inside).1
    have high := scene.document.endOfLine_le_length line
    omega

lemma nodup_passed (place : Nat → Nat) {n : Nat}
    (separate : ∀ a ≤ n, ∀ b ≤ n, place a = place b → a = b) :
    (place 0 :: (List.range' 1 n).map place).Nodup := by
  have all : 0 :: List.range' 1 n = List.range' 0 (n + 1) := rfl
  rw [← List.map_cons, all]
  refine List.Nodup.map_on (fun a ha b hb => ?_) (List.nodup_range' ..)
  rw [List.mem_range'_1] at ha hb
  exact separate a (by omega) b (by omega)

lemma along_up {line : Nat} (inside : line < scene.document.lineCount) :
    Along blocks scene false (line - ·) 0 line where
  inside d _ hd := by omega
  moves d _ hd := by
    have next : line - d = line - (d + 1) + 1 := by omega
    refine .inl ?_
    rw [next]
    exact advance_up_succ (by omega)
  stops := by
    rw [Nat.zero_add, Nat.sub_self]
    exact advance_up_zero _

lemma along_down {line : Nat} (inside : line < scene.document.lineCount) :
    Along blocks scene true (line + ·) 0 (scene.document.lineCount - (line + 1)) where
  inside d _ hd := by omega
  moves d _ hd := by
    have below : line + (d + 1) < scene.document.lineCount := by omega
    rw [advance_down (by omega), Nat.add_assoc]
    split
    · next blank =>
      obtain ⟨last, unread⟩ := blank_of_startOfLine blocks below blank
      exact .inr ⟨by omega, rfl, unread⟩
    · exact .inl rfl
  stops := by
    have last : line + (0 + (scene.document.lineCount - (line + 1))) + 1 = scene.document.lineCount := by omega
    rw [advance_down (by omega), last, Document.startOfLine_of_le (Nat.le_refl _), if_pos (Nat.le_refl _)]

lemma search_ends (blocks : List Block) {line : Nat} (inside : line < scene.document.lineCount)
    (keyword : LineKeyword) :
    let answer := (partnerOfLine? blocks scene line keyword).map fun found => scene.document.startOfLine found.1
    ∃ trace, Ends (Search.step blocks scene keyword.block (keyword.role ≠ .closing))
        ⟨scene.document.startOfLine line, 0⟩ trace answer ∧
      (line :: linesPassed scene.document trace answer).Nodup := by
  rw [partnerOfLine?]
  by_cases closing : keyword.role = .closing
  · have order : ∀ d, line - 1 - d = line - (d + 1) := by omega
    have along : Along blocks scene false (line - ·) 0 line := along_up inside
    obtain ⟨trace, ends, n, room, passed⟩ := ends_search along keyword.block 0
    have nodup : (line :: (List.range' 1 n).map (line - ·)).Nodup := nodup_passed (line - ·) (by omega)
    rw [if_pos closing, Option.map_map]
    simp only [order, closing]
    exact ⟨trace, ends, passed ▸ nodup⟩
  · have order : ∀ d, line + 1 + d = line + (d + 1) := by omega
    have along : Along blocks scene true (line + ·) 0 (scene.document.lineCount - (line + 1)) := along_down inside
    obtain ⟨trace, ends, n, -, passed⟩ := ends_search along keyword.block 0
    have nodup : (line :: (List.range' 1 n).map (line + ·)).Nodup := nodup_passed (line + ·) (by omega)
    rw [if_neg closing, Option.map_map]
    simp only [order, decide_eq_true closing]
    exact ⟨trace, ends, passed ▸ nodup⟩

end Block

end Counterpart
