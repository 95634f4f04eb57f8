import Counterpart.Number.Shortest
import Counterpart.Settings

/-!
Acts: what a command does while it looks around. An act moves the cursor, writes to the journal, and may
be halted; cursor and journal stay as they were left then.
-/

namespace Counterpart

inductive Entry where
  | log (message : String)
  | error (message cause : String)
  | assertion (message : String)
deriving DecidableEq, Repr

structure Trail where
  cursor : Int
  journal : List Entry := []
deriving DecidableEq, Repr

inductive Halt where
  | raised (message : String)
  | endless
deriving DecidableEq, Repr

abbrev Act := ExceptT Halt (StateM Trail)

namespace Act

def run {α : Type} (act : Act α) (trail : Trail) : Except Halt α × Trail := act trail

def cursor : Act Int := do return (← get).cursor

def moveTo (position : Int) : Act Unit := modify fun trail => { trail with cursor := position }

def record (entry : Entry) : Act Unit :=
  modify fun trail => { trail with journal := trail.journal ++ [entry] }

def note (message : String) : Act Unit := record (.log message)

def raise {α : Type} (message : String) : Act α := throw (.raised message)

def debugEntries (settings : Settings) (message : String) : List Entry :=
  if settings.debug then [.log (programName ++ ": " ++ message)] else []

def debug (settings : Settings) (message : String) : Act Unit :=
  modify fun trail => { trail with journal := trail.journal ++ debugEntries settings message }

variable {α β : Type}

@[simp] theorem run_pure (a : α) (trail : Trail) : run (pure a) trail = (.ok a, trail) := rfl

theorem run_bind (act : Act α) (continuation : α → Act β) (trail : Trail) :
    run (act >>= continuation) trail =
      match act.run trail with
      | (.ok a, after) => run (continuation a) after
      | (.error halt, after) => (.error halt, after) := by
  change (ExceptT.bind act continuation) trail = _
  simp only [ExceptT.bind, ExceptT.mk, run]
  change (match act trail with | (a, after) => ExceptT.bindCont continuation a after) = _
  rcases act trail with ⟨result, after⟩
  cases result <;> rfl

@[simp] theorem run_cursor (trail : Trail) : run cursor trail = (.ok trail.cursor, trail) := rfl

@[simp] theorem run_moveTo (position : Int) (trail : Trail) :
    run (moveTo position) trail = (.ok (), { trail with cursor := position }) := rfl

@[simp] theorem run_record (entry : Entry) (trail : Trail) :
    run (record entry) trail = (.ok (), { trail with journal := trail.journal ++ [entry] }) := rfl

@[simp] theorem run_debug (settings : Settings) (message : String) (trail : Trail) :
    run (debug settings message) trail =
      (.ok (), { trail with journal := trail.journal ++ debugEntries settings message }) := rfl

@[simp] theorem run_throw (halt : Halt) (trail : Trail) :
    run (throw halt : Act α) trail = (.error halt, trail) := rfl

end Act

def offsetText (offset : Int) : String := Number.wholeText offset

def offsetText? : Option Int → String
  | none => "undefined"
  | some offset => offsetText offset

end Counterpart
