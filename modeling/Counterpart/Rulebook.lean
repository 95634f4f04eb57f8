/-!
A rulebook: the rules of each grammar. Grammars keep the order in which they were first registered.
-/

namespace Counterpart

universe u

structure Rulebook (ρ : Type u) where
  entries : List (String × List ρ)

namespace Rulebook

variable {ρ : Type u}

def empty : Rulebook ρ := ⟨[]⟩

def put (grammar : String) (rules : List ρ) : List (String × List ρ) → List (String × List ρ)
  | [] => [(grammar, rules)]
  | entry :: entries =>
    if entry.1 = grammar then (grammar, rules) :: entries else entry :: put grammar rules entries

def register (book : Rulebook ρ) (grammar : String) (rules : List ρ) : Rulebook ρ :=
  ⟨put grammar rules book.entries⟩

def registerAll (book : Rulebook ρ) (grammars : List String) (rules : List ρ) : Rulebook ρ :=
  grammars.foldl (fun book grammar => book.register grammar rules) book

def lookup (book : Rulebook ρ) (grammar : String) : List ρ := (book.entries.lookup grammar).getD []

theorem lookup_put (grammar other : String) (rules : List ρ) (entries : List (String × List ρ)) :
    (put grammar rules entries).lookup other = if other = grammar then some rules else entries.lookup other := by
  induction entries with
  | nil => by_cases h : other = grammar <;> simp [put, List.lookup_cons, h, beq_false_of_ne]
  | cons entry entries ih =>
    obtain ⟨key, listed⟩ := entry
    by_cases hk : key = grammar
    · subst hk
      by_cases ho : other = key <;> simp [put, List.lookup_cons, ho, beq_false_of_ne]
    · by_cases hok : other = key
      · subst hok
        simp [put, hk]
      · simp [put, List.lookup_cons, hk, hok, beq_false_of_ne, ih]

theorem lookup_register (book : Rulebook ρ) (grammar other : String) (rules : List ρ) :
    (book.register grammar rules).lookup other = if other = grammar then rules else book.lookup other := by
  simp only [lookup, register, lookup_put]
  split <;> rfl

def grammars (book : Rulebook ρ) : List String := book.entries.map (·.1)

end Rulebook

end Counterpart
