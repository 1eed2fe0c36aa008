import Calculator.Number.Written
import Calculator.NamedFunction
import Calculator.Operator

/-!
# Postfix expressions

An expression in postfix order is a list of nodes: every operator and function stands
after its operands.
-/
namespace Calculator

/-- One entry of a postfix expression. -/
inductive Node where
  | number (value : Float)
  | negation
  | operation (operator : Operator)
  | call (function : NamedFunction)
deriving DecidableEq

namespace Node

/-- How many operands a node takes. -/
def arity : Node → Nat
  | number _ => 0
  | negation | call _ => 1
  | operation _ => 2

/-- A node as text; a tilde writes negation, apart from subtraction. -/
def text : Node → String
  | number value => Number.text value
  | negation => "~"
  | operation operator => String.singleton operator.symbol
  | call function => String.ofList function.name

end Node

/-- The texts of the nodes, one blank between neighbours. -/
def postfixText (nodes : List Node) : String :=
  String.intercalate " " (nodes.map Node.text)

end Calculator
