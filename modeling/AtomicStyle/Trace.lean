import AtomicStyle.Failure

/-!
# Notes along the way

A compilation can be followed by the notes it leaves: a summary at level 1, one note a rule at level
2, one a declaration at level 3.  A traced computation is its result together with the notes taken
until it ended, with or without a result.  Notes never decide anything: the result of a sequence of
traced steps is that of the steps alone (`result_bind`).

The compiler is written once, for any monad in which steps may fail and notes may be left
(`Compiling`).  The functions written so have names that end in `In`.  Run as an `Outcome` they pass
over their notes, and run as a `Trace` they take them.

* `Note`, `Traced` - notes, and computations that leave them;
* `Traced.note`, `Traced.lift` - a note, and a step without one;
* `Compiling` - what the compiler asks of a monad, and `Trace`, where it takes notes;
* `notesUpTo` - the notes that a verbosity lets through.
-/

namespace AtomicStyle

/-- A remark with the verbosity from which on it is shown. -/
structure Note where
  level : Nat
  text : String
deriving DecidableEq, Repr

/-- A computation with the notes taken until it ended. -/
structure Traced (ε α : Type) where
  notes : List Note
  result : Except ε α

namespace Traced

variable {ε α β : Type}

/-- The notes of both steps, the second of which is taken only if the first has a result. -/
def bind (x : Traced ε α) (f : α → Traced ε β) : Traced ε β :=
  match x.result with
  | .error e => { notes := x.notes, result := .error e }
  | .ok a =>
    let y := f a
    { notes := x.notes ++ y.notes, result := y.result }

instance : Monad (Traced ε) where
  pure a := { notes := [], result := .ok a }
  bind := bind

/-- The notes of a list. -/
def notesOf (notes : List Note) : Traced ε Unit :=
  { notes := notes, result := .ok () }

/-- One note. -/
def note (level : Nat) (text : String) : Traced ε Unit :=
  notesOf [{ level := level, text := text }]

/-- A step without notes. -/
def lift (x : Except ε α) : Traced ε α :=
  { notes := [], result := x }

/-- The same computation with another way to fail. -/
def mapError {ε' : Type} (f : ε → ε') (x : Traced ε α) : Traced ε' α :=
  { notes := x.notes, result := x.result.mapError f }

@[simp] theorem result_pure (a : α) : (pure a : Traced ε α).result = .ok a := rfl

/-- Notes do not decide: a sequence has the result of its steps. -/
@[simp] theorem result_bind (x : Traced ε α) (f : α → Traced ε β) :
    (x >>= f).result = x.result >>= fun a => (f a).result := by
  change (bind x f).result = _
  unfold bind
  cases x.result <;> rfl

end Traced

/-- The texts of the notes that a verbosity lets through. -/
def notesUpTo (verbosity : Nat) (notes : List Note) : List String :=
  (notes.filter fun n => decide (n.level ≤ verbosity)).map Note.text

/-! ## Compiling with notes or without -/

/-- A compilation that takes notes. -/
abbrev Trace (α : Type) := Traced Failure α

/-- What the compiler asks of a monad. -/
class Compiling (m : Type → Type) extends Monad m where
  /-- A step that leaves no note. -/
  step {α : Type} (x : Outcome α) : m α
  /-- Notes, for those who take them. -/
  leave (notes : List Note) : m Unit
  /-- A computation whose failures are located at a frame selector. -/
  locate {α : Type} (selector : String) (x : m α) : m α

namespace Compiling

instance : Compiling (Except Failure) where
  step x := x
  leave _ := .ok ()
  locate := atSelector

instance : Compiling (Traced Failure) where
  step := Traced.lift
  leave := Traced.notesOf
  locate selector := Traced.mapError (Failure.inSelector selector)

variable {m : Type → Type} [Compiling m] {α β : Type}

/-- One note. -/
def note (level : Nat) (text : String) : m Unit :=
  leave [{ level := level, text := text }]

/-- A note that is left when the condition holds. -/
def noteIf (condition : Bool) (level : Nat) (text : String) : m Unit :=
  leave (if condition then [{ level := level, text := text }] else [])

/-! An outcome passes over the notes. -/

@[simp] theorem step_outcome (x : Outcome α) : (step x : Outcome α) = x := rfl

@[simp] theorem leave_bind (notes : List Note) (f : Unit → Outcome β) :
    (leave notes >>= f) = f () := rfl

@[simp] theorem note_bind (level : Nat) (text : String) (f : Unit → Outcome β) :
    (note level text >>= f) = f () := rfl

end Compiling

end AtomicStyle
