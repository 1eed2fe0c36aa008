import Calculator.Token.Cursor

/-!
# Token streams

The tokens of a text in order, each with the knowledge whether an opening
parenthesis follows it immediately, and the failure that ends them, if one does.
-/
namespace Calculator

/-- A token in its surroundings. -/
structure Lexeme where
  token : Token
  /-- Whether an opening parenthesis comes right behind the token. -/
  opens : Bool
deriving DecidableEq, Repr

structure TokenStream where
  lexemes : List Lexeme
  /-- Why no token follows; none at the end of a text. -/
  ending : Option Failure

namespace TokenStream

/-- The stream that delivers one more token first. -/
def cons (lexeme : Lexeme) (stream : TokenStream) : TokenStream :=
  { stream with lexemes := lexeme :: stream.lexemes }

end TokenStream

/-- The tokens that the following advances of a cursor deliver. -/
def Cursor.stream (cursor : Cursor) : TokenStream :=
  match _moved : cursor.advance with
  | (_, some failure) => ⟨[], some failure⟩
  | (next, none) =>
    match _delivered : next.current with
    | none => ⟨[], none⟩
    | some token => next.stream.cons ⟨token, next.isBefore '('⟩
termination_by cursor.rest.length
decreasing_by exact advance_rest_length_lt _moved rfl _delivered

/-- The tokens of a text. -/
def TokenStream.ofString (text : String) : TokenStream :=
  (Cursor.start text).stream

end Calculator
