import Calculator.Proofs.Number.Shown
import Calculator.Record

/-!
# The wording of records and failures

The level and the words with which a record stands in the log, and the words for a
failure. Every double is written so that it can be read back.
-/
namespace Calculator

open Number (InFull inFull_text)

/-- The word for a node of a postfix order. -/
inductive Node.Written : Node → String → Prop
  | number {value : Float} {line : String} (full : InFull line value) : Written (.number value) line
  | negation : Written .negation "~"
  | operation (operator : Operator) :
      Written (.operation operator) (String.singleton operator.symbol)
  | call (function : NamedFunction) : Written (.call function) (String.ofList function.name)

theorem Node.written_text (node : Node) : node.Written node.text := by
  cases node with
  | number value => exact .number (inFull_text value)
  | negation => exact .negation
  | operation operator => exact .operation operator
  | call function => exact .call function

/-- The word for a kind of token. -/
inductive TokenKind.Written : TokenKind → String → Prop
  | identifier : Written .identifier "identifier"
  | number : Written .number "number"
  | operator : Written .operator "operator"
  | punctuation : Written .punctuation "punctuation"

theorem TokenKind.written_name (kind : TokenKind) : kind.Written kind.name := by
  cases kind with
  | identifier => exact .identifier
  | number => exact .number
  | operator => exact .operator
  | punctuation => exact .punctuation

/-- The level of a record and its words. -/
inductive Record.Logged : Record → LogLevel → String → Prop
  | scanned {token : Token} {kind : String} (word : token.kind.Written kind) :
      Logged (.scanned token) .trace
        ("scanned " ++ kind ++ " '" ++ String.ofList token.content ++ "' at " ++
          toString token.position)
  | assigned {name : Char} {value : Float} {line : String} (full : InFull line value) :
      Logged (.assigned name value) .debug (String.singleton name ++ " = " ++ line)
  | converted {nodes : List Node} {words : List String}
      (each : List.Forall₂ Node.Written nodes words) :
      Logged (.converted nodes) .debug ("postfix: " ++ String.intercalate " " words)
  | calculated {expression : String} {value : Float} {line : String} (full : InFull line value) :
      Logged (.calculated expression value) .debug (expression ++ " = " ++ line)

theorem Record.logged (record : Record) : record.Logged record.level record.message := by
  cases record with
  | scanned token => exact .scanned token.kind.written_name
  | assigned name value => exact .assigned (inFull_text value)
  | converted nodes =>
    refine .converted ?_
    rw [List.forall₂_map_right_iff, List.forall₂_same]
    exact fun node _ => node.written_text
  | calculated expression value => exact .calculated (inFull_text value)

/-- The words for a failure. -/
inductive Failure.Told : Failure → String → Prop
  | invalidCharacter (character : Char) (position : Nat) :
      Told (.invalidCharacter character position)
        ("invalid character, '" ++ String.singleton character ++ "', encountered at position " ++
          toString position)
  | invalidNumber (text : List Char) :
      Told (.invalidNumber text) ("'" ++ String.ofList text ++ "' is not a valid number")
  | unknownIdentifier (name : List Char) :
      Told (.unknownIdentifier name) ("'" ++ String.ofList name ++ "' is not a known function")
  | unclosedParenthesis : Told .unclosedParenthesis "could not find a match for '('"
  | unopenedParenthesis : Told .unopenedParenthesis "could not find a match for ')'"
  | invalidVariableInput (name : Char) (answer : List Char) :
      Told (.invalidVariableInput name answer)
        ("'" ++ String.ofList answer ++ "' is not a valid value for '" ++ String.singleton name ++
          "'")
  | undefinedVariable (name : Char) :
      Told (.undefinedVariable name) ("variable, '" ++ String.singleton name ++ "', is not defined")
  | missingOperand {node : Node} {word : String} (written : node.Written word) :
      Told (.missingOperand node) ("'" ++ word ++ "' is missing an operand")
  | resultCount (count : Nat) :
      Told (.resultCount count) ("expression left " ++ toString count ++ " values instead of one")
  | unreadableInput (reason : String) :
      Told (.unreadableInput reason) ("could not read input: " ++ reason)

theorem Failure.told (failure : Failure) : failure.Told failure.message := by
  cases failure with
  | missingOperand node => exact .missingOperand node.written_text
  | _ => constructor

end Calculator
