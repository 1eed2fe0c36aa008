import Calculator.Conversion
import Calculator.Proofs.Dialogue.Questions

/-!
# Answers as values

A dialogue that makes nothing of an answer but the value that it reads as takes the same
course against any two sources that answer its questions with the same values, whatever
the texts of the answers and the states of the sources are.
-/
namespace Calculator

variable {σ τ α β : Type}

/-- An answer reads as a value, apart from the blanks around it. -/
def ReadsAs (answer : String) (value : Float) : Prop :=
  Number.read? (Text.trim answer.toList) = some value

instance (answer : String) (value : Float) : Decidable (ReadsAs answer value) :=
  inferInstanceAs (Decidable (_ = _))

/-- Two runs with the same events, against any sources, and the same end. -/
structure SameCourse (run : Run σ α) (other : Run τ α) : Prop where
  events : run.events = other.events
  outcome : run.outcome = other.outcome

namespace SameCourse

variable {run : Run σ α} {other : Run τ α}

theorem requests (h : SameCourse run other) : run.requests = other.requests := by
  rw [Run.requests, Run.requests, h.events]

theorem after (event : Event) (h : SameCourse run other) :
    SameCourse (run.after event) (other.after event) where
  events := congrArg (event :: ·) h.events
  outcome := h.outcome

end SameCourse

/-! ## Dialogues that read values -/

namespace Dialogue

variable {letters : Char → Prop}

/-- The dialogue asks for these letters only, and of an answer it uses nothing but the value. -/
def AsksValues (letters : Char → Prop) : Dialogue α → Prop
  | done _ => True
  | note _ next => next.AsksValues letters
  | ask name next => letters name ∧
      (∀ answer other value, ReadsAs answer value → ReadsAs other value →
        next answer = next other) ∧
      ∀ answer, (next answer).AsksValues letters

theorem AsksValues.bind {dialogue : Dialogue α} {next : α → Dialogue β}
    (h : dialogue.AsksValues letters) (hnext : ∀ value, (next value).AsksValues letters) :
    (dialogue >>= next).AsksValues letters := by
  induction dialogue with
  | done outcome =>
    cases outcome with
    | ok value => exact hnext value
    | error failure => trivial
  | note record rest ih => exact ih h
  | ask name rest ih =>
    obtain ⟨hname, hvalue, hrest⟩ := h
    refine ⟨hname, fun answer other value ha ho => ?_, fun answer => ih answer (hrest answer)⟩
    exact congrArg (· >>= next) (hvalue answer other value ha ho)

end Dialogue

/-! ## Sources that answer with the same values -/

/-- What the source answers when it is asked for some variables in order. -/
def Source.replies (source : Source σ) : List Char → σ → List (Except Failure String)
  | [], _ => []
  | name :: names, state =>
    (source.answer name state).1 :: source.replies names (source.answer name state).2

/-- Two sources answer all of their questions, and the answers in the same place read as the same
value. -/
structure SameValues (source : Source σ) (state : σ) (names : List Char) (other : Source τ)
    (otherState : τ) (otherNames : List Char) : Prop where
  answered : ∀ reply ∈ source.replies names state, reply.isOk = true
  otherAnswered : ∀ reply ∈ other.replies otherNames otherState, reply.isOk = true
  values : ∀ (place : Nat) (answer reply : String),
    (source.replies names state)[place]? = some (.ok answer) →
    (other.replies otherNames otherState)[place]? = some (.ok reply) →
    ∃ value, ReadsAs answer value ∧ ReadsAs reply value

namespace SameValues

variable {source : Source σ} {other : Source τ} {state next : σ} {otherState otherNext : τ}
  {name otherName : Char} {names otherNames : List Char} {answer reply : String}

theorem symm (h : SameValues source state names other otherState otherNames) :
    SameValues other otherState otherNames source state names where
  answered := h.otherAnswered
  otherAnswered := h.answered
  values place answer reply ha hr := by
    obtain ⟨value, hreply, hanswer⟩ := h.values place reply answer hr ha
    exact ⟨value, hanswer, hreply⟩

theorem not_failed {failure : Failure}
    (h : SameValues source state (name :: names) other otherState otherNames)
    (hs : source.answer name state = (.error failure, next)) : False := by
  have hfirst := h.answered _ List.mem_cons_self
  rw [hs] at hfirst
  exact Bool.false_ne_true hfirst

/-- The first answers read as one value, and so do the further ones. -/
theorem cons
    (h : SameValues source state (name :: names) other otherState (otherName :: otherNames))
    (hs : source.answer name state = (.ok answer, next))
    (ht : other.answer otherName otherState = (.ok reply, otherNext)) :
    (∃ value, ReadsAs answer value ∧ ReadsAs reply value) ∧
      SameValues source next names other otherNext otherNames := by
  obtain ⟨ha, ho, hv⟩ := h
  rw [Source.replies, hs] at ha hv
  rw [Source.replies, ht] at ho hv
  refine ⟨hv 0 answer reply rfl rfl, ?_⟩
  constructor
  · exact fun reply hm => ha reply (List.mem_cons_of_mem _ hm)
  · exact fun reply hm => ho reply (List.mem_cons_of_mem _ hm)
  · exact fun place => hv (place + 1)

end SameValues

/-- The induction is on the dialogue: up to the first question both runs are the same, and behind
it both go on with what follows the value. -/
theorem Dialogue.AsksValues.sameCourse {letters : Char → Prop} {source : Source σ}
    {other : Source τ} {dialogue : Dialogue α} (h : dialogue.AsksValues letters)
    {state : σ} {otherState : τ}
    (hvalues : SameValues source state (dialogue.run source state).requests other otherState
      (dialogue.run other otherState).requests) :
    SameCourse (dialogue.run source state) (dialogue.run other otherState) := by
  induction dialogue generalizing state otherState with
  | done outcome => exact ⟨rfl, rfl⟩
  | note record next ih => exact (ih h hvalues).after _
  | ask name next ih =>
    obtain ⟨-, hsame, hrest⟩ := h
    rw [run_ask, run_ask] at hvalues ⊢
    rcases hs : source.answer name state with ⟨failure | answer, after⟩
    · rw [hs] at hvalues
      exact (hvalues.not_failed hs).elim
    rcases ht : other.answer name otherState with ⟨failure | reply, otherAfter⟩
    · rw [ht] at hvalues
      exact (hvalues.symm.not_failed ht).elim
    rw [hs, ht] at hvalues
    obtain ⟨⟨value, hanswer, hreply⟩, htail⟩ := hvalues.cons hs ht
    dsimp only
    rw [hsame answer reply value hanswer hreply] at htail ⊢
    exact (ih reply (hrest reply) htail).after _

end Calculator
