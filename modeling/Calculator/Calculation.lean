import Calculator.Conversion
import Calculator.Postfix.Evaluation

/-!
# Calculations

An expression is converted and then evaluated. Its value is noted with the expression
as written, apart from blanks around it.
-/
namespace Calculator

/-- The calculation of an expression. -/
def calculate (expression : String) : Dialogue Float := do
  let nodes ← convert expression
  match evaluate nodes with
  | .ok value => .note (.calculated (Text.trimmed expression) value) (pure value)
  | .error failure => .done (.error failure)

end Calculator
