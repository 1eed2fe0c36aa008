import Calculator.Assignment
import Calculator.Record

/-!
# Invocations

What a user asks of the calculator when starting it, and why a list of arguments may
not be such a request. The reasons and their messages belong to the outer layer, which
stands in for a library for command lines; no result speaks of them.
-/
namespace Calculator

structure Invocation where
  /-- The expression to evaluate once; without one a session begins. -/
  expression : Option String
  /-- The given values of variables, in the order given. -/
  presets : List Assignment
  /-- The count of places with which values are shown. -/
  precision : Option Nat
  logLevel : Option LogLevel
deriving DecidableEq

def Invocation.empty : Invocation :=
  ⟨none, [], none, none⟩

/-- The options that take a value. -/
inductive OptionName where
  | preset
  | precision
  | logLevel
deriving DecidableEq, Repr

namespace OptionName

/-- The name behind two dashes. -/
def long : OptionName → String
  | preset => "var"
  | precision => "precision"
  | logLevel => "log-level"

end OptionName

/-- Why arguments are no invocation. The first two are wishes to be granted, the others are
mistakes. -/
inductive Interruption where
  | helpWanted
  | versionWanted
  /-- An option that does not exist, or a second expression. -/
  | unknownArgument (argument : String)
  /-- An option without its value. -/
  | missingValue (option : OptionName)
  /-- An option given twice that has one value. -/
  | repeatedOption (option : OptionName)
  /-- A value that an option does not admit. -/
  | invalidValue (option : OptionName) (value : String)
  /-- A value for an option that has none. -/
  | superfluousValue (argument : String)
deriving DecidableEq, Repr

namespace Interruption

def message : Interruption → String
  | helpWanted => "help was asked for"
  | versionWanted => "the version was asked for"
  | unknownArgument argument => s!"unexpected argument '{argument}'"
  | missingValue option => s!"option '--{option.long}' needs a value"
  | repeatedOption option => s!"option '--{option.long}' cannot be given more than once"
  | invalidValue option value => s!"invalid value '{value}' for option '--{option.long}'"
  | superfluousValue argument => s!"unexpected value in '{argument}'"

end Interruption

end Calculator
