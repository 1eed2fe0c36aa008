import Calculator.CommandLine

/-!
# The program at a terminal

The outer layer: what `CommandLine.run` says of a whole input happens here line by line.
Every output is visible before the next line is read, and notes go to standard error.
Without a level among the arguments or in `CALC_LOG` only warnings are admitted. A logging
library may fall back on filters from an environment variable of its own before that; such
a fallback is left out, as it touches nothing but standard error.
-/
namespace Calculator.Main

/-- Shows an output at once. -/
def emit (output : Output) : IO Unit := do
  let out ← IO.getStdout
  out.putStr output.text
  out.flush

/-- Reads the bytes up to and with the next line feed; none at the end of the input. -/
def readLine : IO (Option InputLine) := do
  let input ← IO.getStdin
  let mut bytes : Array UInt8 := #[]
  repeat
    let next ← input.read 1
    bytes := bytes ++ next.data
    if next.data != #[] && next.data != #[10] then continue
    break
  return if bytes.isEmpty then none else some (.ofBytes bytes.toList)

/-- Carries out a dialogue. -/
def perform {α : Type} (answer : Char → IO (Except Failure String)) (note : Record → IO Unit) :
    Dialogue α → IO (Except Failure α)
  | .done outcome => return outcome
  | .note record next => do
    note record
    perform answer note next
  | .ask name next => do
    match ← answer name with
    | .ok text => perform answer note (next text)
    | .error failure => return .error failure

/-- Answers from the presets, or else with the next line. -/
def answer (presets : Bindings) (name : Char) : IO (Except Failure String) := do
  if (presets.get? name).isSome then return presets.answer name
  emit (.question name)
  let line ← readLine
  return (Console.question name ⟨line.toList, []⟩).1

/-- Writes a note to standard error if the level admits it. -/
def note (level : LogLevel) (record : Record) : IO Unit := do
  if record.level.verbosity ≤ level.verbosity then
    IO.eprintln s!"[{record.level.name}] {record.message}"

/-- Reports an expression; tells whether it has a value. -/
def report (invocation : Invocation) (expression : String) : IO Bool := do
  let presets := CommandLine.presets invocation
  let level := invocation.logLevel.getD .warn
  let outcome ← perform (answer presets) (note level) (calculate expression)
  emit (.ofOutcome invocation.precision outcome)
  return outcome.isOk

/-- Reports line after line; the result is the exit status. -/
def session (invocation : Invocation) : IO Nat := do
  repeat
    emit .ready
    match (← readLine).map Turn.ofLine with
    | none => return 0
    | some (.finish status) => return status
    | some (.evaluate expression) =>
      let _ ← report invocation expression
  return 0

/-- Serves an invocation; the result is the exit status. -/
def serve (invocation : Invocation) : IO Nat := do
  match invocation.expression with
  | some expression => return if ← report invocation expression then 0 else 1
  | none => session invocation

/-- Shows what there is to show when nothing is to be served. -/
def stop (interruption : Interruption) : IO Nat := do
  let exchange := CommandLine.interrupted interruption
  exchange.shown.forM emit
  if exchange.status ≠ 0 then IO.eprintln s!"error: {interruption.message}"
  return exchange.status

def environment : IO Environment := do
  return ⟨← IO.getEnv "CALC_PRECISION", ← IO.getEnv "CALC_LOG"⟩

end Calculator.Main

def main (arguments : List String) : IO UInt32 := do
  let status ← match Calculator.CommandLine.invocation arguments (← Calculator.Main.environment) with
    | .ok invocation => Calculator.Main.serve invocation
    | .error interruption => Calculator.Main.stop interruption
  return status.toUInt32
