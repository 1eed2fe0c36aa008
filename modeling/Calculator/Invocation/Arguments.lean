import Calculator.Invocation

/-!
# Arguments

Reading the arguments of a command line. An option takes its value from the same
argument or from the next one that does not begin with a dash. A value is looked at
when the next option or expression has been recognised, so an argument that nobody
knows is reported before a bad value just ahead of it. These rules are those of the outer
layer, which stands in for a library for command lines; no result speaks of them.
-/
namespace Calculator

/-- The count that a text writes: digits, perhaps behind a plus sign, for less than `2 ^ 64`. -/
def readCount? (text : List Char) : Option Nat :=
  let digits := match text with
    | '+' :: rest => rest
    | _ => text
  if digits.isEmpty || !digits.all Char.isDigit then none
  else
    let count := Number.ofDigits digits
    if count < UInt64.size then some count else none

namespace Invocation

/-- The invocation with one more option. -/
def withOption (option : OptionName) (value : String) (invocation : Invocation) :
    Except Interruption Invocation :=
  match option with
  | .preset =>
    match Assignment.read value.toList with
    | .ok preset => .ok { invocation with presets := invocation.presets ++ [preset] }
    | .error _ => .error (.invalidValue option value)
  | .precision =>
    if invocation.precision.isSome then .error (.repeatedOption option)
    else
      match readCount? value.toList with
      | some places => .ok { invocation with precision := some places }
      | none => .error (.invalidValue option value)
  | .logLevel =>
    if invocation.logLevel.isSome then .error (.repeatedOption option)
    else
      match LogLevel.ofText? value with
      | some level => .ok { invocation with logLevel := some level }
      | none => .error (.invalidValue option value)

end Invocation

/-- Arguments read so far. -/
structure ArgumentReader where
  invocation : Invocation
  /-- An option that has not been looked at yet, with its value once that has been read. -/
  pending : Option (OptionName × Option String)
  /-- Whether two dashes have ended the options. -/
  optionsEnded : Bool

namespace ArgumentReader

def start : ArgumentReader :=
  ⟨.empty, none, false⟩

/-- The invocation with the pending option taken in. -/
def settled (reader : ArgumentReader) : Except Interruption Invocation :=
  match reader.pending with
  | none => .ok reader.invocation
  | some (option, none) => .error (.missingValue option)
  | some (option, some value) => reader.invocation.withOption option value

/-- The reader after an option, with its value if that stands in the same argument. -/
def option (name : OptionName) (value : Option String) (reader : ArgumentReader) :
    Except Interruption ArgumentReader := do
  let invocation ← reader.settled
  match value with
  | none => return { reader with invocation, pending := some (name, none) }
  | some value =>
    return { reader with invocation := ← invocation.withOption name value, pending := none }

/-- The end of reading at a wish, if what stands before it is in order. -/
def wish (wanted : Interruption) (reader : ArgumentReader) : Except Interruption ArgumentReader := do
  let _ ← reader.settled
  throw wanted

/-- The reader after the one argument that is no option. -/
def expression (text : String) (reader : ArgumentReader) :
    Except Interruption ArgumentReader := do
  if reader.invocation.expression.isSome then throw (.unknownArgument text)
  let invocation ← reader.settled
  return { reader with
    invocation := { invocation with expression := some text }
    pending := none }

/-- The reader after an option behind two dashes. -/
def longOption (argument : String) (name : List Char) (value : Option String)
    (reader : ArgumentReader) : Except Interruption ArgumentReader :=
  let wish (wanted : Interruption) :=
    if value.isSome then .error (.superfluousValue argument) else reader.wish wanted
  match String.ofList name with
  | "var" => reader.option .preset value
  | "precision" => reader.option .precision value
  | "log-level" => reader.option .logLevel value
  | "help" => wish .helpWanted
  | "version" => wish .versionWanted
  | _ => .error (.unknownArgument argument)

/-- The value of a short option in the same argument: what follows the letter, less an equals
sign in front. -/
def attached? : List Char → Option String
  | [] => none
  | '=' :: value => some (String.ofList value)
  | value => some (String.ofList value)

/-- The reader after the letters behind one dash. An option with a value takes the rest of the
argument, and the other options end the reading. -/
def shortOptions (argument : String) (letters : List Char) (reader : ArgumentReader) :
    Except Interruption ArgumentReader :=
  match letters with
  | 'v' :: value => reader.option .preset (attached? value)
  | 'p' :: value => reader.option .precision (attached? value)
  | 'h' :: _ => reader.wish .helpWanted
  | 'V' :: _ => reader.wish .versionWanted
  | _ => .error (.unknownArgument argument)

/-- The reader after an argument that does not begin with a dash, or is a dash. -/
def plain (argument : String) (reader : ArgumentReader) : Except Interruption ArgumentReader :=
  match reader.pending with
  | some (option, none) => .ok { reader with pending := some (option, some argument) }
  | _ => reader.expression argument

/-- The reader after one more argument. -/
def add (reader : ArgumentReader) (argument : String) : Except Interruption ArgumentReader :=
  if reader.optionsEnded then reader.expression argument
  else
    match argument.toList with
    | ['-', '-'] => .ok { reader with optionsEnded := true }
    | '-' :: '-' :: text =>
      match Assignment.split? text with
      | some (name, value) => reader.longOption argument name (some (String.ofList value))
      | none => reader.longOption argument text none
    | '-' :: letter :: letters => reader.shortOptions argument (letter :: letters)
    | _ => reader.plain argument

end ArgumentReader

/-- Values for options that stand in the environment. -/
structure Environment where
  precision : Option String
  logLevel : Option String

namespace Invocation

/-- The invocation with the values of the environment for options that were not given. -/
def withEnvironment (environment : Environment) (invocation : Invocation) :
    Except Interruption Invocation := do
  let invocation ← match environment.precision, invocation.precision with
    | some value, none => invocation.withOption .precision value
    | _, _ => .ok invocation
  match environment.logLevel, invocation.logLevel with
  | some value, none => invocation.withOption .logLevel value
  | _, _ => .ok invocation

/-- Reads the arguments of a command line, the name of the program not among them. -/
def read (arguments : List String) : Except Interruption Invocation := do
  let reader ← arguments.foldlM ArgumentReader.add .start
  reader.settled

end Invocation

end Calculator
