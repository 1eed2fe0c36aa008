import Calculator.Failure

/-!
# Evaluation of postfix expressions

A postfix expression is evaluated on a stack of doubles. Whether it has a value
depends on how many operands its nodes take, never on the numbers themselves.
-/
namespace Calculator

/-- The stack of doubles after a node; the top is at the head. -/
def Node.evaluate : Node → List Float → Except Failure (List Float)
  | .number value, stack => .ok (value :: stack)
  | .negation, value :: stack => .ok (-value :: stack)
  | .operation operator, right :: left :: stack => .ok (operator.apply left right :: stack)
  | .call function, value :: stack => .ok (function.apply value :: stack)
  | node, _ => .error (.missingOperand node)

/-- The single double that a postfix expression leaves. -/
def result : List Float → Except Failure Float
  | [value] => .ok value
  | stack => .error (.resultCount stack.length)

/-- The stack of doubles after a list of nodes. -/
def evaluateOn (stack : List Float) (nodes : List Node) : Except Failure (List Float) :=
  nodes.foldlM (fun stack node => node.evaluate stack) stack

/-- The value of a postfix expression. -/
def evaluate (nodes : List Node) : Except Failure Float :=
  (evaluateOn [] nodes).bind result

theorem evaluate_eq_ok_iff {nodes : List Node} {value : Float} :
    evaluate nodes = .ok value ↔ evaluateOn [] nodes = .ok [value] := by
  rw [evaluate]
  cases evaluateOn [] nodes with
  | error failure => simp [Except.bind]
  | ok stack =>
    rcases stack with _ | ⟨top, _ | ⟨second, stack⟩⟩ <;> simp [Except.bind, result]

end Calculator
