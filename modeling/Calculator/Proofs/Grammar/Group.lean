import Calculator.Proofs.Grammar.Mark

/-!
# Well-formed expressions

A group is an optional sign, a primary, and links of an operator and a primary each. A
primary is an operand, a group in parentheses or a call. What may stand behind what is
told by three stages that the marks pass through.
-/
namespace Calculator

mutual

inductive Group (α : Type) where
  | mk (signed : Bool) (first : Primary α) (links : Links α)

inductive Links (α : Type) where
  | nil
  | link (links : Links α) (operator : Operator) (primary : Primary α)

inductive Primary (α : Type) where
  | operand (a : α)
  | enclosed (group : Group α)
  | call (function : NamedFunction) (group : Group α)

end

variable {α β : Type}

def signMarks (signed : Bool) : List (Mark α) :=
  if signed then [.sign] else []

mutual

def Group.marks : Group α → List (Mark α)
  | .mk signed first links => signMarks signed ++ first.marks ++ links.marks

def Links.marks : Links α → List (Mark α)
  | .nil => []
  | .link links operator primary => links.marks ++ .operation operator :: primary.marks

def Primary.marks : Primary α → List (Mark α)
  | .operand a => [.operand a]
  | .enclosed group => .opening :: group.marks ++ [.closing]
  | .call function group => .call function :: group.marks ++ [.closing]

end

section Mapping

variable {m : Type → Type} [Monad m]

mutual

/-- The same group with other operands, which a computation supplies from left to right. -/
def Group.mapM (f : α → m β) : Group α → m (Group β)
  | .mk signed first links => do return .mk signed (← first.mapM f) (← links.mapM f)

def Links.mapM (f : α → m β) : Links α → m (Links β)
  | .nil => pure .nil
  | .link links operator primary => do return .link (← links.mapM f) operator (← primary.mapM f)

def Primary.mapM (f : α → m β) : Primary α → m (Primary β)
  | .operand a => .operand <$> f a
  | .enclosed group => .enclosed <$> group.mapM f
  | .call function group => .call function <$> group.mapM f

end

variable [LawfulMonad m] (f : α → m β)

theorem mapM_signMarks (signed : Bool) :
    (signMarks signed : List (Mark α)).mapM (Mark.mapM f) = pure (signMarks signed) := by
  cases signed with
  | false => rfl
  | true => simp [signMarks, Mark.mapM]

mutual

theorem Group.mapM_marks : ∀ group : Group α,
    group.marks.mapM (Mark.mapM f) = Group.marks <$> group.mapM f
  | .mk signed first links => by
    rw [Group.marks, List.mapM_append, List.mapM_append, mapM_signMarks, first.mapM_marks,
      links.mapM_marks, Group.mapM]
    simp [Group.marks]

theorem Links.mapM_marks : ∀ links : Links α,
    links.marks.mapM (Mark.mapM f) = Links.marks <$> links.mapM f
  | .nil => by simp [Links.marks, Links.mapM]
  | .link links operator primary => by
    rw [Links.marks, List.mapM_append, List.mapM_cons, links.mapM_marks, primary.mapM_marks,
      Links.mapM]
    simp [Mark.mapM, Links.marks]

theorem Primary.mapM_marks : ∀ primary : Primary α,
    primary.marks.mapM (Mark.mapM f) = Primary.marks <$> primary.mapM f
  | .operand a => by simp [Primary.marks, Primary.mapM, Mark.mapM]
  | .enclosed group => by
    rw [Primary.marks, List.mapM_append, List.mapM_cons, group.mapM_marks, Primary.mapM]
    simp [Mark.mapM, Primary.marks]
  | .call function group => by
    rw [Primary.marks, List.mapM_append, List.mapM_cons, group.mapM_marks, Primary.mapM]
    simp [Mark.mapM, Primary.marks]

end

end Mapping

/-! ## The stages of a group -/

/-- What stands before a mark. -/
inductive Stage where
  /-- Nothing, or an opening parenthesis. -/
  | leading
  /-- A sign or an operator. -/
  | awaiting
  /-- The end of an operand. -/
  | complete
deriving DecidableEq

/-- The stage behind a mark, wherever the mark stands. -/
def Mark.stage : Mark α → Stage
  | operand _ | closing => .complete
  | call _ | opening => .leading
  | sign | operation _ => .awaiting

namespace Stage

/-- The stage behind a mark, if the mark may stand here. -/
def after? : Stage → Mark α → Option Stage
  | complete, .operation _ => some awaiting
  | complete, .closing => some complete
  | complete, _ => none
  | _, .operand _ => some complete
  | _, .call _ | _, .opening => some leading
  | leading, .sign => some awaiting
  | _, _ => none

def through? (stage : Stage) (marks : List (Mark α)) : Option Stage :=
  marks.foldlM after? stage

theorem after?_eq_stage {stage next : Stage} {mark : Mark α} (h : stage.after? mark = some next) :
    next = mark.stage := by
  cases stage <;> cases mark <;> cases h <;> rfl

theorem through?_cons (stage : Stage) (mark : Mark α) (marks : List (Mark α)) :
    stage.through? (mark :: marks) = (stage.after? mark).bind (through? · marks) := rfl

theorem through?_append (stage : Stage) (marks more : List (Mark α)) :
    stage.through? (marks ++ more) = (stage.through? marks).bind (through? · more) :=
  List.foldlM_append

theorem through?_append_of_eq {stage next : Stage} {marks : List (Mark α)}
    (h : stage.through? marks = some next) (more : List (Mark α)) :
    stage.through? (marks ++ more) = next.through? more := by
  rw [through?_append, h]
  rfl

theorem through?_of_append {stage last : Stage} {marks more : List (Mark α)}
    (h : stage.through? (marks ++ more) = some last) :
    ∃ next, stage.through? marks = some next ∧ next.through? more = some last := by
  rw [through?_append, Option.bind_eq_some_iff] at h
  exact h

theorem after?_of_opens {stage : Stage} {mark : Mark α} (hs : stage ≠ complete)
    (ho : mark.opens = true) : stage.after? mark = some leading := by
  cases stage with
  | complete => exact absurd rfl hs
  | leading => cases mark <;> first | rfl | cases ho
  | awaiting => cases mark <;> first | rfl | cases ho

theorem through?_signMarks (α : Type) (signed : Bool) :
    ∃ next, next ≠ complete ∧ leading.through? (signMarks signed : List (Mark α)) = some next := by
  cases signed with
  | false => exact ⟨leading, by decide, rfl⟩
  | true => exact ⟨awaiting, by decide, rfl⟩

end Stage

open Stage

/-- The marks between two parentheses come to the stage behind the opening one's partner. -/
theorem Stage.through?_enclosed {opener : Mark α} (ho : opener.opens = true) {stage : Stage}
    (hs : stage ≠ complete) {marks : List (Mark α)} (h : leading.through? marks = some complete) :
    stage.through? (opener :: marks ++ [.closing]) = some complete := by
  rw [List.cons_append, through?_cons, after?_of_opens hs ho]
  exact through?_append_of_eq h [.closing]

mutual

theorem Group.through?_marks : ∀ group : Group α, leading.through? group.marks = some complete
  | .mk signed first links => by
    obtain ⟨next, hne, hn⟩ := through?_signMarks α signed
    rw [Group.marks, List.append_assoc, through?_append_of_eq hn,
      through?_append_of_eq (first.through?_marks hne)]
    exact links.through?_marks

theorem Links.through?_marks : ∀ links : Links α, complete.through? links.marks = some complete
  | .nil => rfl
  | .link links operator primary => by
    rw [Links.marks, through?_append_of_eq links.through?_marks, through?_cons]
    exact primary.through?_marks (by decide)

theorem Primary.through?_marks : ∀ (primary : Primary α) {stage : Stage}, stage ≠ complete →
    stage.through? primary.marks = some complete
  | .operand a, stage, hs => by
    cases stage <;> first | rfl | exact absurd rfl hs
  | .enclosed group, stage, hs => through?_enclosed rfl hs group.through?_marks
  | .call function group, stage, hs => through?_enclosed rfl hs group.through?_marks

end

end Calculator
