import Calculator.Main
import Calculator.Proofs.Text.Classes
import Calculator.Proofs.Text.Runs
import Calculator.Proofs.Token.Scanning
import Calculator.Proofs.Dialogue.Play
import Calculator.Proofs.Number.Numeral
import Calculator.Proofs.Conversion.Reading
import Calculator.Proofs.Number.Sign
import Calculator.Proofs.Yard.Steps
import Calculator.Proofs.Yard.Nesting
import Calculator.Proofs.Conversion.RunByRun
import Calculator.Proofs.Conversion.Offence
import Calculator.Proofs.Conversion.Acceptance
import Calculator.Proofs.Grammar.Group
import Calculator.Proofs.Grammar.Spelling
import Calculator.Proofs.Conversion.Spelled
import Calculator.Proofs.Grammar.Meaning
import Calculator.Proofs.Yard.Chains
import Calculator.Proofs.Yard.Groups
import Calculator.Proofs.Conversion.WellFormed
import Calculator.Proofs.Grammar.Recognition
import Calculator.Proofs.Yard.Weight
import Calculator.Proofs.Conversion.Derivation
import Calculator.Proofs.Conversion.Replacement
import Calculator.Proofs.Conversion.RunStep
import Calculator.Proofs.Dialogue.Questions
import Calculator.Proofs.Conversion.Inquiry
import Calculator.Proofs.Yard.Unnamed
import Calculator.Proofs.Conversion.Unnamed
import Calculator.Proofs.Number.Negation
import Calculator.Proofs.Yard.Enclosed
import Calculator.Proofs.Conversion.Composition
import Calculator.Proofs.Yard.Inventory
import Calculator.Proofs.Conversion.Inventory
import Calculator.Proofs.Grammar.Nests
import Calculator.Proofs.Yard.Nests
import Calculator.Proofs.Conversion.Nests
import Calculator.Proofs.Dialogue.Events
import Calculator.Proofs.Conversion.Transcript
import Calculator.Proofs.Token.Tiling
import Calculator.Proofs.Postfix.Terms
import Calculator.Proofs.Session.Interview
import Calculator.Proofs.Session.Course
import Calculator.Proofs.Number.Rounding
import Calculator.Proofs.Number.Bits
import Calculator.Proofs.Number.ReadBack
import Calculator.Proofs.Token.Spacing
import Calculator.Proofs.Conversion.Spacing
import Calculator.Proofs.Dialogue.Values
import Calculator.Proofs.Conversion.Values
import Calculator.Proofs.Session.Values
import Calculator.Proofs.Conversion.Literals
import Calculator.Proofs.Session.Presets
import Calculator.Proofs.Postfix.Heights
import Calculator.Proofs.Dialogue.Failures
import Calculator.Proofs.Conversion.Counts
import Calculator.Proofs.Token.Writing
import Calculator.Proofs.Dialogue.Places
import Calculator.Proofs.Conversion.Doubled
import Calculator.Proofs.Token.Calls
import Calculator.Proofs.Text.Trimming
import Calculator.Proofs.Session.Assignments
import Calculator.Proofs.Session.Prompts
import Calculator.Proofs.Yard.Segments
import Calculator.Proofs.Conversion.Steps
import Calculator.Proofs.Conversion.Segments
import Calculator.Proofs.Yard.Frames
import Calculator.Proofs.Conversion.Frames
import Calculator.Proofs.Conversion.ClosedGroups
