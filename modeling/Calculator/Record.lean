import Calculator.Failure
import Calculator.Token

/-!
# Records

What a calculation notes about its progress, and the levels by which notes are
filtered.
-/
namespace Calculator

/-- How much is noted, from nothing to everything. -/
inductive LogLevel where
  | off
  | error
  | warn
  | info
  | debug
  | trace
deriving DecidableEq, Repr

namespace LogLevel

def all : List LogLevel :=
  [off, error, warn, info, debug, trace]

/-- The name of a level, in lower case. -/
def name : LogLevel → String
  | off => "off"
  | error => "error"
  | warn => "warn"
  | info => "info"
  | debug => "debug"
  | trace => "trace"

/-- The level that a text names in letters of either case. -/
def ofText? (text : String) : Option LogLevel :=
  all.find? fun level => String.ofList (text.toList.map Char.toLower) = level.name

/-- How verbose a level is. -/
def verbosity : LogLevel → Nat
  | off => 0
  | error => 1
  | warn => 2
  | info => 3
  | debug => 4
  | trace => 5

end LogLevel

/-- One note of a calculation. -/
inductive Record where
  /-- A token has been read. -/
  | scanned (token : Token)
  /-- A variable has got its value. -/
  | assigned (name : Char) (value : Float)
  /-- An expression has been brought into postfix order. -/
  | converted (nodes : List Node)
  /-- An expression has been evaluated. -/
  | calculated (expression : String) (value : Float)
deriving DecidableEq

namespace Record

def level : Record → LogLevel
  | scanned _ => .trace
  | assigned .. | converted _ | calculated .. => .debug

def message : Record → String
  | scanned token =>
    s!"scanned {token.kind.name} '{String.ofList token.content}' at {token.position}"
  | assigned name value => s!"{name} = {Number.text value}"
  | converted nodes => s!"postfix: {postfixText nodes}"
  | calculated expression value => s!"{expression} = {Number.text value}"

end Record

end Calculator
