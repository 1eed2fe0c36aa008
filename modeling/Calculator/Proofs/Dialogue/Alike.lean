import Calculator.Proofs.Dialogue.Play

/-!
# Alike states of a source

Two states are alike if the source answers all further questions alike. A dialogue
played from alike states has the same result and leaves alike states behind.
-/
namespace Calculator

variable {σ α β : Type} {source : Source σ} {s t : σ}

namespace Source

/-- The state of a source that has been asked for some variables. -/
def after (source : Source σ) (names : List Char) (state : σ) : σ :=
  names.foldl (fun state name => (source.answer name state).2) state

theorem after_append (source : Source σ) (names more : List Char) (state : σ) :
    source.after (names ++ more) state = source.after more (source.after names state) :=
  List.foldl_append

/-- No questions tell the two states apart. -/
def Alike (source : Source σ) (s t : σ) : Prop :=
  ∀ names name, (source.answer name (source.after names s)).1 =
    (source.answer name (source.after names t)).1

theorem Alike.refl (source : Source σ) (s : σ) : source.Alike s s := fun _ _ => rfl

theorem Alike.after (h : source.Alike s t) (names : List Char) :
    source.Alike (source.after names s) (source.after names t) := by
  intro more name
  rw [← after_append, ← after_append]
  exact h (names ++ more) name

end Source

/-- Equal results with alike states, or the same failure. -/
def Agree (source : Source σ) : Except Failure (α × σ) → Except Failure (α × σ) → Prop
  | .ok (a, s), .ok (b, t) => a = b ∧ source.Alike s t
  | .error failure, .error other => failure = other
  | _, _ => False

namespace Agree

theorem pure (h : source.Alike s t) (a : α) :
    Agree source ((Pure.pure a : Answering σ α).run s) ((Pure.pure a : Answering σ α).run t) :=
  ⟨rfl, h⟩

theorem ofOutcome (h : source.Alike s t) (outcome : Except Failure α) :
    Agree source ((Answering.ofOutcome outcome).run s) ((Answering.ofOutcome outcome).run t) := by
  cases outcome with
  | error failure => rfl
  | ok a => exact ⟨rfl, h⟩

theorem bind {first : Answering σ α} {next : α → Answering σ β}
    (h : Agree source (first.run s) (first.run t))
    (hnext : ∀ a s t, source.Alike s t → Agree source ((next a).run s) ((next a).run t)) :
    Agree source ((first >>= next).run s) ((first >>= next).run t) := by
  rw [StateT.run_bind, StateT.run_bind]
  rcases hs : first.run s with failure | ⟨a, s'⟩
  · rcases ht : first.run t with other | ⟨b, t'⟩
    · rw [hs, ht] at h
      exact h
    · rw [hs, ht] at h
      exact h.elim
  · rcases ht : first.run t with other | ⟨b, t'⟩
    · rw [hs, ht] at h
      exact h.elim
    · rw [hs, ht] at h
      obtain ⟨rfl, ha⟩ := h
      exact hnext a s' t' ha

theorem map_fst {r r' : Except Failure (α × σ)} (h : Agree source r r') :
    r.map Prod.fst = r'.map Prod.fst := by
  rcases r with failure | ⟨a, s⟩
  · rcases r' with other | ⟨b, t⟩
    · exact congrArg Except.error h
    · exact h.elim
  · rcases r' with other | ⟨b, t⟩
    · exact h.elim
    · exact congrArg Except.ok h.1

end Agree

theorem Dialogue.play_agree (h : source.Alike s t) (dialogue : Dialogue α) :
    Agree source ((dialogue.play source).run s) ((dialogue.play source).run t) := by
  induction dialogue generalizing s t with
  | done outcome => exact .ofOutcome h outcome
  | note record next ih => exact ih h
  | ask name next ih =>
    have hname := h [] name
    have hnext := h.after [name]
    change Agree source ((source.ask name >>= fun text => (next text).play source).run s)
      ((source.ask name >>= fun text => (next text).play source).run t)
    refine .bind ?_ fun text s t hst => ih text hst
    change (source.answer name s).1 = (source.answer name t).1 at hname
    change source.Alike (source.answer name s).2 (source.answer name t).2 at hnext
    simp only [Source.ask, StateT.run]
    rcases hs : source.answer name s with ⟨answer, s'⟩
    rcases ht : source.answer name t with ⟨other, t'⟩
    rw [hs, ht] at hname hnext
    obtain rfl := hname
    cases answer with
    | error failure => rfl
    | ok text => exact ⟨rfl, hnext⟩

end Calculator
