import Calculator.Token.Symbol
import Mathlib.Control.Lawful

/-!
# Marks

The marks of an expression are its tokens as the conversion takes them: a minus is
already told apart from a sign, and a name stands together with its parenthesis. The
operands may be anything: what is written, or what it is worth.
-/
namespace Calculator

inductive Mark (α : Type) where
  | operand (a : α)
  | call (function : NamedFunction)
  | sign
  | operation (operator : Operator)
  | opening
  | closing
deriving DecidableEq

/-- The worth of an operand. -/
inductive Value where
  | literal (value : Float)
  | answered (value : Float)
deriving DecidableEq

namespace Mark

variable {α β : Type}

/-- The marks behind which an operand is complete. -/
def endsOperand : Mark α → Bool
  | operand _ | closing => true
  | _ => false

/-- The marks with which an operand begins. -/
def beginsOperand : Mark α → Bool
  | operand _ | call _ | opening => true
  | _ => false

/-- The marks behind which a minus is a sign. -/
def opens : Mark α → Bool
  | call _ | opening => true
  | _ => false

/-- The mark with another operand, which a computation supplies. -/
def mapM {m : Type → Type} [Monad m] (f : α → m β) : Mark α → m (Mark β)
  | operand a => operand <$> f a
  | call function => pure (call function)
  | sign => pure sign
  | operation operator => pure (operation operator)
  | opening => pure opening
  | closing => pure closing

end Mark

end Calculator
