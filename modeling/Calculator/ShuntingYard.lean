import Calculator.Failure

/-!
# The shunting yard

Infix order becomes postfix order in a yard: operands leave it at once, operators wait
on a stack for their right operand, and functions wait on a stack of their own. The
nodes that have left the yard are only ever added to.
-/
namespace Calculator

/-- What waits on the stack of the yard. -/
inductive Waiting where
  | operation (operator : Operator)
  | negation
  | parenthesis
deriving DecidableEq, Repr

/-- The node that something waiting becomes; a parenthesis becomes none. -/
def Waiting.node? : Waiting → Option Node
  | operation operator => some (.operation operator)
  | negation => some .negation
  | parenthesis => none

structure ShuntingYard where
  /-- The nodes that have left the yard, the last at the head. -/
  departed : List Node
  /-- Operators, negations and open parentheses, the innermost at the head. -/
  stack : List Waiting
  /-- The functions whose argument is not complete, the innermost at the head. -/
  functions : List NamedFunction
deriving DecidableEq

namespace ShuntingYard

def empty : ShuntingYard :=
  ⟨[], [], []⟩

/-- The nodes that have left the yard, in their order. -/
def nodes (yard : ShuntingYard) : List Node :=
  yard.departed.reverse

def emit (node : Node) (yard : ShuntingYard) : ShuntingYard :=
  { yard with departed := node :: yard.departed }

@[simp] theorem nodes_emit (node : Node) (yard : ShuntingYard) :
    (yard.emit node).nodes = yard.nodes ++ [node] := by
  simp [nodes, emit]

def push (waiting : Waiting) (yard : ShuntingYard) : ShuntingYard :=
  { yard with stack := waiting :: yard.stack }

/-- Lets the innermost waiting function leave, if there is one. -/
def releaseFunction (yard : ShuntingYard) : ShuntingYard :=
  match yard.functions with
  | [] => yard
  | function :: functions => { yard.emit (.call function) with functions }

/-- Lets the negation on top of the stack leave, if there is one there. -/
def releaseNegation (yard : ShuntingYard) : ShuntingYard :=
  match yard.stack with
  | .negation :: stack => { yard.emit .negation with stack }
  | _ => yard

/-- A number leaves at once, then the sign directly before it, then one function. -/
def addNumber (value : Float) (yard : ShuntingYard) : ShuntingYard :=
  (yard.emit (.number value)).releaseNegation.releaseFunction

/-- The value of a variable leaves at once, a negative one as its magnitude and a negation, then
one function. A sign before the variable stays. -/
def addVariable (value : Float) (yard : ShuntingYard) : ShuntingYard :=
  if value < 0 then
    ((yard.emit (.number (-value))).emit .negation).releaseFunction
  else
    (yard.emit (.number value)).releaseFunction

/-- The operators on top of a stack that bind at least as tightly as the given one. -/
def tighter (operator : Operator) : List Waiting → List Operator
  | .operation top :: stack =>
    if operator.precedence ≤ top.precedence then top :: tighter operator stack else []
  | _ => []

/-- An operator waits, after all operators on top of the stack that bind at least as tightly have
left. -/
def addOperator (operator : Operator) (yard : ShuntingYard) : ShuntingYard :=
  let leaving := tighter operator yard.stack
  { yard with
    departed := (leaving.map Node.operation).reverse ++ yard.departed
    stack := .operation operator :: yard.stack.drop leaving.length }

def addSign (yard : ShuntingYard) : ShuntingYard :=
  yard.push .negation

def openGroup (yard : ShuntingYard) : ShuntingYard :=
  yard.push .parenthesis

/-- A function waits for its argument, and its parenthesis is open. -/
def openCall (function : NamedFunction) (yard : ShuntingYard) : ShuntingYard :=
  { yard.push .parenthesis with functions := function :: yard.functions }

/-- Lets everything above the innermost open parenthesis leave, each time with one function, and
closes the parenthesis. -/
def closeGroup (yard : ShuntingYard) : Except Failure ShuntingYard :=
  close yard.stack yard
where
  /-- The yard closed over the given stack. -/
  close : List Waiting → ShuntingYard → Except Failure ShuntingYard
    | [], _ => .error .unopenedParenthesis
    | .parenthesis :: stack, yard => .ok { yard with stack }
    | .operation operator :: stack, yard =>
      close stack (yard.emit (.operation operator)).releaseFunction
    | .negation :: stack, yard => close stack (yard.emit .negation).releaseFunction

/-- All nodes, after the waiting functions and then the stack have left. An open parenthesis has
no node to become. -/
def finish (yard : ShuntingYard) : Except Failure (List Node) :=
  match yard.stack.mapM Waiting.node? with
  | some waiting => .ok (yard.nodes ++ yard.functions.map Node.call ++ waiting)
  | none => .error .unclosedParenthesis

end ShuntingYard

end Calculator
