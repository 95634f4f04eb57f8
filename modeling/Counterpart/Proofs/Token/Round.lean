import Counterpart.Proofs.Token.Boundary

/-! The scan of a text from place to place. A round at a place paints the stretches of one token and goes on
behind it, as long as no comment marker begins with a line feed: such a comment would end where it begins. -/

namespace Counterpart

def Lexicon.MarkersUnled (lex : Lexicon) : Prop := ∀ marker ∈ lex.lineComments, marker.head? ≠ some lineFeed

lemma Lexicon.MarkersInline.unled {lex : Lexicon} (inline : lex.MarkersInline) : lex.MarkersUnled := by
  intro marker hm first
  exact inline marker hm (List.mem_of_mem_head? first)

namespace Units

lemma length_takeWhile_ne (u : UInt16) (us : Units) :
    (us.takeWhile (· != u)).length = (find? [u] us).getD us.length := by
  rw [find?_singleton]
  induction us with
  | nil => rfl
  | cons v us ih =>
    by_cases hu : v = u
    · simp [List.idxOf?_cons, hu]
    · simp [List.idxOf?_cons, hu, ih]

lemma lt_length_of_drop {us rest : Units} {u : UInt16} {n : Nat} (h : us.drop n = u :: rest) : n < us.length := by
  have size := congrArg List.length h
  rw [List.length_drop, List.length_cons] at size
  omega

lemma contains_take (u : UInt16) (us : Units) (n : Nat) :
    (us.take n).contains u = (find? [u] us).any (· < n) := by
  rw [Bool.eq_iff_iff, List.contains_iff_mem, ← List.isSome_idxOf?, find?_singleton, List.idxOf?,
    List.findIdx?_take, ← List.idxOf?]
  cases List.idxOf? u us <;> simp [Option.guard]

end Units

namespace Token

open Counterpart.Units

structure Stroke where
  style : Style
  start : Nat
  stop : Nat

structure Round where
  strokes : List Stroke
  stop : Nat

section

variable (us : Units) (place : Nat)

def beginsAt (word : Units) : Bool := !word.isEmpty && word.isPrefixOf (us.drop place)

def findBehind? (word : Units) : Option Nat := (find? word (us.drop place)).map (place + ·)

def blockRound? (pairs : List (Units × Units)) : Option Round :=
  (pairs.find? fun pair => beginsAt us place pair.1).map fun pair =>
    let body := place + pair.1.length
    let closer := findBehind? us body pair.2
    let close := closer.getD us.length
    let stop := (closer.map (· + pair.2.length)).getD us.length
    ⟨[⟨.commentDelimiter, place, body⟩, ⟨.comment, body, close⟩, ⟨.commentDelimiter, close, stop⟩],
      stop⟩

def lineRound? (markers : List Units) : Option Round :=
  (markers.find? (beginsAt us place)).map fun marker =>
    let stop := (findBehind? us place [lineFeed]).getD us.length
    ⟨[⟨.commentDelimiter, place, place + marker.length⟩, ⟨.comment, place + marker.length, stop⟩],
      stop⟩

variable (lex : Lexicon) (quote : UInt16)

def stringStop (place : Nat) : Nat :=
  if h : place < us.length then
    if us[place] == quote || us[place] == lineFeed && !lex.isMultiline quote then place
    else stringStop (place + if lex.isEscape us[place] then 2 else 1)
  else place
termination_by us.length - place
decreasing_by split <;> omega

def stringEnd : Nat :=
  let last := stringStop us lex quote place
  if us[last]? = some quote then last + 1 else min last us.length

def characterStop? : Option Nat :=
  if us[place + 1]?.any lex.isEscape then
    match findBehind? us (place + 3) [quote] with
    | none => none
    | some close => if (findBehind? us place [lineFeed]).any (· < close) then none else some (close + 1)
  else if us[place + 2]? == some quote && us[place + 1]? != some lineFeed then some (place + 3)
  else none

def plainRound (u : UInt16) : Round :=
  if lex.isQuote u then
    let stop := stringEnd us (place + 1) lex u
    ⟨[⟨.string, place, stop⟩], stop⟩
  else if lex.isCharQuote u then
    match characterStop? us place lex u with
    | some stop => ⟨[⟨.string, place, stop⟩], stop⟩
    | none => ⟨[], place + 1⟩
  else ⟨[], place + 1⟩

def round : Round :=
  match blockRound? us place lex.blockComments with
  | some round => round
  | none =>
    match lineRound? us place lex.lineComments with
    | some round => round
    | none => (us[place]?.map (plainRound us place lex)).getD ⟨[], place + 1⟩

end

def strokes (place : Nat) : Token → List Stroke
  | plain => []
  | blockComment opener body closer =>
    [⟨.commentDelimiter, place, place + opener⟩, ⟨.comment, place + opener, place + opener + body⟩,
      ⟨.commentDelimiter, place + opener + body, place + opener + body + closer⟩]
  | lineComment marker length =>
    [⟨.commentDelimiter, place, place + marker⟩, ⟨.comment, place + marker, place + length⟩]
  | string length => [⟨.string, place, place + length⟩]
  | character length => [⟨.string, place, place + length⟩]

def Round.ofToken (place : Nat) (token : Token) : Round := ⟨token.strokes place, place + token.length⟩

variable {us vs : Units} {place : Nat}

lemma blockRound?_eq (h : us.drop place = vs) (hp : place ≤ us.length) (pairs : List (Units × Units)) :
    blockRound? us place pairs = (blockCommentOf? vs pairs).map (Round.ofToken place) := by
  induction pairs with
  | nil => rfl
  | cons pair pairs ih =>
    obtain ⟨opener, closer⟩ := pair
    rw [blockRound?, List.find?_cons, blockCommentOf?, beginsAt, h]
    by_cases begins : (!opener.isEmpty && opener.isPrefixOf vs) = true
    · have opened := (List.isPrefixOf_iff_prefix.mp (Bool.and_eq_true_iff.mp begins).2).length_le
      have size : vs.length = us.length - place := by rw [← h, List.length_drop]
      have body : us.drop (place + opener.length) = vs.drop opener.length := by rw [← List.drop_drop, h]
      rw [begins, if_pos rfl]
      simp only [Option.map_some, findBehind?, body]
      cases find? closer (vs.drop opener.length) with
      | none =>
        have whole : place + opener.length + (vs.length - opener.length) = us.length := by omega
        simp [Round.ofToken, strokes, length, whole]
        omega
      | some n =>
        simp [Round.ofToken, strokes, length]
        omega
    · rw [if_neg begins, Bool.eq_false_iff.mpr begins]
      exact ih

lemma lineRound?_eq (h : us.drop place = vs) (hp : place ≤ us.length) {markers : List Units}
    (unled : ∀ marker ∈ markers, marker.head? ≠ some lineFeed) :
    lineRound? us place markers = (lineCommentOf? vs markers).map (Round.ofToken place) := by
  induction markers with
  | nil => rfl
  | cons marker markers ih =>
    obtain ⟨first, others⟩ := List.forall_mem_cons.mp unled
    rw [lineRound?, List.find?_cons, lineCommentOf?, beginsAt, h]
    by_cases begins : (!marker.isEmpty && marker.isPrefixOf vs) = true
    · have size : vs.length = us.length - place := by rw [← h, List.length_drop]
      have room : 0 < (vs.takeWhile (· != lineFeed)).length := by
        obtain ⟨nonempty, opens⟩ := Bool.and_eq_true_iff.mp begins
        obtain ⟨rest, rfl⟩ := List.isPrefixOf_iff_prefix.mp opens
        cases marker with
        | nil => contradiction
        | cons u marker =>
          have hu : (u != lineFeed) = true := by simpa using first
          simp [hu]
      have stop : (findBehind? us place [lineFeed]).getD us.length =
          place + (vs.takeWhile (· != lineFeed)).length := by
        rw [length_takeWhile_ne, findBehind?, h]
        cases find? [lineFeed] vs with
        | none => simp only [Option.map_none, Option.getD_none]; omega
        | some n => rfl
      rw [begins, if_pos rfl, Option.map_some, Option.map_some, stop, Nat.max_eq_right room]
      rfl
    · rw [if_neg begins, Bool.eq_false_iff.mpr begins]
      exact ih others

section

variable (lex : Lexicon) (quote : UInt16)

lemma stringStop_of_unit {u : UInt16} (h : us[place]? = some u) :
    stringStop us lex quote place =
      if u == quote || u == lineFeed && !lex.isMultiline quote then place
      else stringStop us lex quote (place + if lex.isEscape u then 2 else 1) := by
  obtain ⟨inside, rfl⟩ := List.getElem?_eq_some_iff.mp h
  rw [stringStop, dif_pos inside]

lemma stringEnd_behind (h : us.length ≤ place) : stringEnd us place lex quote = us.length := by
  have stop : stringStop us lex quote place = place := by rw [stringStop, dif_neg (Nat.not_lt.mpr h)]
  simp [stringEnd, stop, h]

lemma stringEnd_of_unit {u : UInt16} (h : us[place]? = some u) :
    stringEnd us place lex quote =
      if u == quote then place + 1
      else if u == lineFeed && !lex.isMultiline quote then place
      else stringEnd us (place + if lex.isEscape u then 2 else 1) lex quote := by
  have inside : place ≤ us.length := Nat.le_of_lt (List.getElem?_eq_some_iff.mp h).1
  rw [stringEnd, stringStop_of_unit lex quote h]
  by_cases closes : u = quote
  · simp [closes, closes ▸ h]
  · by_cases feed : (u == lineFeed && !lex.isMultiline quote) = true
    · simp [closes, feed, h, inside]
    · simp only [feed, beq_eq_false_iff_ne.mpr closes, Bool.false_or, Bool.false_eq_true, if_false]
      rfl

lemma stringEnd_eq {read : Nat} (h : us.drop (place + read) = vs) (hp : place + read ≤ us.length) :
    stringEnd us (place + read) lex quote = place + stringLength lex quote read vs := by
  have head : ∀ {read : Nat} {u : UInt16} {rest : Units}, us.drop (place + read) = u :: rest →
      us[place + read]? = some u := by
    intro read u rest h
    rw [← List.head?_drop, h, List.head?_cons]
  have size := congrArg List.length h
  rw [List.length_drop] at size
  fun_induction stringLength lex quote read vs with
  | case1 read =>
    rw [List.length_nil] at size
    rw [stringEnd_behind lex quote (by omega)]
    omega
  | case2 read u rest closes =>
    rw [stringEnd_of_unit lex quote (head h), if_pos closes]
    rfl
  | case3 read u rest other feed => rw [stringEnd_of_unit lex quote (head h), if_neg other, if_pos feed]
  | case4 read u other feed escape =>
    rw [List.length_singleton] at size
    rw [stringEnd_of_unit lex quote (head h), if_neg other, if_neg feed, if_pos escape,
      stringEnd_behind lex quote (by omega)]
    omega
  | case5 read u other feed escape v rest ih =>
    simp only [List.length_cons] at size
    rw [stringEnd_of_unit lex quote (head h), if_neg other, if_neg feed, if_pos escape]
    have next : us.drop (place + (read + 2)) = rest := by rw [← Nat.add_assoc, ← List.drop_drop, h]; rfl
    exact ih next (by omega) (by omega)
  | case6 read u rest other feed escape ih =>
    simp only [List.length_cons] at size
    rw [stringEnd_of_unit lex quote (head h), if_neg other, if_neg feed, if_neg escape]
    have next : us.drop (place + (read + 1)) = rest := by rw [← Nat.add_assoc, ← List.drop_drop, h]; rfl
    exact ih next (by omega) (by omega)

end

lemma characterStop?_eq (lex : Lexicon) {u : UInt16} {rest : Units} (h : us.drop place = u :: rest) :
    characterStop? us place lex u = (characterLength? lex u rest).map (place + ·) := by
  have ahead : ∀ n, us[place + (n + 1)]? = rest[n]? := fun n => by
    rw [← List.getElem?_drop, h, List.getElem?_cons_succ]
  have behind : us.drop (place + 3) = rest.drop 2 := by
    rw [← List.drop_drop, h]
    rfl
  rw [characterStop?, characterLength?, ahead 0, ahead 1, ← List.head?_eq_getElem?]
  by_cases escape : rest.head?.any lex.isEscape = true
  · rw [if_pos escape, if_pos escape, findBehind?, behind]
    cases find? [u] (rest.drop 2) with
    | none => rfl
    | some k =>
      have feeds : (findBehind? us place [lineFeed]).any (· < place + 3 + k) =
          ((u :: rest).take (k + 3)).contains lineFeed := by
        rw [contains_take, findBehind?, h, Option.any_map]
        congr 1
        funext n
        simp only [decide_eq_decide]
        omega
      simp only [Option.map_some, feeds]
      split
      · rfl
      · simp only [Option.map_some, Option.some.injEq]
        omega
  · rw [if_neg escape, if_neg escape]
    split <;> rfl

lemma round_eq {lex : Lexicon} (unled : lex.MarkersUnled) {u : UInt16} {rest : Units}
    (h : us.drop place = u :: rest) :
    round us place lex = .ofToken place (next lex u rest) := by
  have inside := lt_length_of_drop h
  have here : us[place]? = some u := by rw [← List.head?_drop, h, List.head?_cons]
  have behind : us.drop (place + 1) = rest := by
    rw [← List.drop_drop, h]
    rfl
  rw [round, next, blockRound?_eq h (Nat.le_of_lt inside), lineRound?_eq h (Nat.le_of_lt inside) unled, here]
  cases blockCommentOf? (u :: rest) lex.blockComments with
  | some token => rfl
  | none =>
    cases lineCommentOf? (u :: rest) lex.lineComments with
    | some token => rfl
    | none =>
      simp only [Option.map_none, Option.map_some, Option.getD_some, plainRound]
      by_cases quote : lex.isQuote u = true
      · rw [if_pos quote, if_pos quote, stringEnd_eq lex u behind inside]
        rfl
      · rw [if_neg quote, if_neg quote]
        by_cases char : lex.isCharQuote u = true
        · rw [if_pos char, if_pos char, characterStop?_eq lex h]
          cases characterLength? lex u rest <;> rfl
        · rw [if_neg char, if_neg char]
          rfl

end Token

end Counterpart
