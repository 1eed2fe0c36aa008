import Calculator.Invocation.Arguments
import Calculator.Session

/-!
# The command line

The calculator as a program: arguments, environment and input decide what it shows and
its exit status. Mistaken arguments end it with status 2 before it shows anything. The
wording of the help and of the version is that of this outer layer alone, in place of a
library for command lines, and no result speaks of it.
-/
namespace Calculator.CommandLine

def version : String := "calc 0.2.0\n"

def help : String :=
  "Evaluates arithmetic expressions\n" ++
  "\n" ++
  "Usage: calc [OPTIONS] [EXPRESSION]\n" ++
  "\n" ++
  "Without an expression an interactive session begins.\n" ++
  "\n" ++
  "Options:\n" ++
  "  -v, --var <NAME=VALUE>       Preset the value of a variable\n" ++
  "  -p, --precision <PRECISION>  Digits printed after the decimal point\n" ++
  "      --log-level <LOG_LEVEL>  Log filter (off, error, warn, info, debug, trace)\n" ++
  "  -h, --help                   Print help\n" ++
  "  -V, --version                Print version\n"

/-- The presets as bindings; of two values of a variable the later one counts. -/
def presets (invocation : Invocation) : Bindings :=
  .ofList (invocation.presets.map fun preset => (preset.name, preset.value))

/-- What the calculator does for an invocation. -/
def serve (invocation : Invocation) (input : List InputLine) : Exchange :=
  let presets := presets invocation
  match invocation.expression with
  | some expression =>
    let report := report presets invocation.precision expression input
    ⟨report.shown, if report.succeeded then 0 else 1⟩
  | none => session presets invocation.precision input

/-- The exchange when there is nothing to serve. -/
def interrupted : Interruption → Exchange
  | .helpWanted => ⟨[.notice help], 0⟩
  | .versionWanted => ⟨[.notice version], 0⟩
  | _ => ⟨[], 2⟩

/-- The invocation that arguments and environment make up together. -/
def invocation (arguments : List String) (environment : Environment) :
    Except Interruption Invocation := do
  let given ← Invocation.read arguments
  given.withEnvironment environment

/-- The whole program. -/
def run (arguments : List String) (environment : Environment) (input : List InputLine) :
    Exchange :=
  match invocation arguments environment with
  | .ok invocation => serve invocation input
  | .error interruption => interrupted interruption

end Calculator.CommandLine
