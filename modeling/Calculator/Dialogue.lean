import Calculator.Record

/-!
# Dialogues

A dialogue is a computation that asks for the values of variables and notes what it
does. It is a tree: every question has one continuation for each answer. Nothing in it
depends on where the answers come from. Dialogues form a lawful monad.
-/
namespace Calculator

inductive Dialogue (α : Type) where
  /-- The end, with a result or a failure. -/
  | done (outcome : Except Failure α)
  /-- A note, and what follows it. -/
  | note (record : Record) (next : Dialogue α)
  /-- The question for a variable, and what follows each answer. -/
  | ask (name : Char) (next : String → Dialogue α)

namespace Dialogue

variable {α β : Type}

/-- The dialogue that goes on with the result of the first; a failure ends both. -/
def bind : Dialogue α → (α → Dialogue β) → Dialogue β
  | done (.ok value), next => next value
  | done (.error failure), _ => done (.error failure)
  | note record rest, next => note record (rest.bind next)
  | ask name rest, next => ask name fun answer => (rest answer).bind next

instance : Monad Dialogue where
  pure value := done (.ok value)
  bind := bind

@[simp] theorem pure_eq (value : α) : (pure value : Dialogue α) = done (.ok value) := rfl

@[simp] theorem done_ok_bind (value : α) (next : α → Dialogue β) :
    (done (.ok value) >>= next) = next value := rfl

@[simp] theorem done_error_bind (failure : Failure) (next : α → Dialogue β) :
    (done (.error failure) >>= next) = done (.error failure) := rfl

@[simp] theorem note_bind (record : Record) (rest : Dialogue α) (next : α → Dialogue β) :
    (note record rest >>= next) = note record (rest >>= next) := rfl

@[simp] theorem ask_bind (name : Char) (rest : String → Dialogue α) (next : α → Dialogue β) :
    (ask name rest >>= next) = ask name fun answer => rest answer >>= next := rfl

theorem bind_done_ok (dialogue : Dialogue α) :
    (dialogue >>= fun value => done (.ok value)) = dialogue := by
  induction dialogue with
  | done outcome => cases outcome <;> rfl
  | note record rest ih => simp [ih]
  | ask name rest ih => simp [ih]

theorem bind_bind {γ : Type} (dialogue : Dialogue α) (first : α → Dialogue β)
    (second : β → Dialogue γ) :
    (dialogue >>= first >>= second) = (dialogue >>= fun value => first value >>= second) := by
  induction dialogue with
  | done outcome => cases outcome <;> rfl
  | note record rest ih => simp [ih]
  | ask name rest ih => simp [ih]

instance : LawfulMonad Dialogue :=
  LawfulMonad.mk' Dialogue bind_done_ok (fun _ _ => rfl) bind_bind

end Dialogue

/-! ## Sources of answers -/

/-- Answers questions from a state, which each question may change. A failure instead of an
answer ends the dialogue. -/
structure Source (σ : Type) where
  answer : Char → σ → Except Failure String × σ

/-- What happens in a dialogue, apart from its end. -/
inductive Event where
  | noted (record : Record)
  | asked (name : Char)
deriving DecidableEq

/-- A dialogue that has come to its end. -/
structure Run (σ α : Type) where
  /-- All events in their order, a question without an answer included. -/
  events : List Event
  outcome : Except Failure α
  /-- The state of the source after its last answer. -/
  state : σ

namespace Run

variable {σ α : Type}

/-- The run with one event before all others. -/
def after (event : Event) (run : Run σ α) : Run σ α :=
  { run with events := event :: run.events }

/-- The variables asked for, in order. -/
def requests (run : Run σ α) : List Char :=
  run.events.filterMap fun
    | .asked name => some name
    | .noted _ => none

/-- The notes, in order. -/
def records (run : Run σ α) : List Record :=
  run.events.filterMap fun
    | .noted record => some record
    | .asked _ => none

end Run

/-- The run of a dialogue against a source, from a state of the source. -/
def Dialogue.run {σ α : Type} (source : Source σ) (state : σ) : Dialogue α → Run σ α
  | done outcome => ⟨[], outcome, state⟩
  | note record next => (next.run source state).after (.noted record)
  | ask name next =>
    match source.answer name state with
    | (.ok text, state) => ((next text).run source state).after (.asked name)
    | (.error failure, state) => ⟨[.asked name], .error failure, state⟩

end Calculator
