import Calculator.Dialogue

/-!
# Bindings

Fixed values of variables. A binding answers with the text of its value; a variable
without one is undefined.
-/
namespace Calculator

structure Bindings where
  /-- The variables and their values; the first entry of a variable counts. -/
  entries : List (Char × Float)

namespace Bindings

def empty : Bindings :=
  ⟨[]⟩

/-- The value of a variable. -/
def get? (name : Char) (bindings : Bindings) : Option Float :=
  bindings.entries.lookup name

/-- The bindings with one more value, in place of the value that the variable had. -/
def set (name : Char) (value : Float) (bindings : Bindings) : Bindings :=
  ⟨(name, value) :: bindings.entries.filter (·.1 ≠ name)⟩

theorem get?_set (name other : Char) (value : Float) (bindings : Bindings) :
    (bindings.set name value).get? other =
      if other = name then some value else bindings.get? other := by
  obtain ⟨entries⟩ := bindings
  simp only [get?, set, List.lookup_cons]
  by_cases same : other = name
  · simp [same]
  · have differs : (other == name) = false := by simpa using same
    simp only [differs, same, if_false]
    induction entries with
    | nil => rfl
    | cons entry entries ih =>
      obtain ⟨old, kept⟩ := entry
      by_cases replaced : old = name
      · have passed : (other == old) = false := by simpa [replaced] using same
        simpa [replaced, List.lookup_cons, differs] using ih
      · rw [List.filter_cons_of_pos (by simpa using replaced), List.lookup_cons,
          List.lookup_cons, ih]

/-- The bindings of a list, where later values replace earlier ones. -/
def ofList (entries : List (Char × Float)) : Bindings :=
  entries.foldl (fun bindings entry => bindings.set entry.1 entry.2) empty

/-- The answer to the question for a variable. -/
def answer (name : Char) (bindings : Bindings) : Except Failure String :=
  match bindings.get? name with
  | some value => .ok (Number.text value)
  | none => .error (.undefinedVariable name)

/-- The source of answers that only the bindings give. -/
def source (bindings : Bindings) : Source Unit where
  answer name state := (bindings.answer name, state)

end Bindings

end Calculator
