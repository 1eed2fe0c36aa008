import Calculator.Failure
import Calculator.Text.Blank
import Calculator.Token

/-!
# Cursors over a text

A cursor stands in a text between two tokens, behind the token it delivered last. It
knows its place in bytes and in characters. An advance that fails has passed the
blanks before the offending character, keeps its token, and fails again in the same way.
-/
namespace Calculator

structure Cursor where
  /-- The text still to be read. -/
  rest : List Char
  /-- The bytes before the cursor, in UTF-8. -/
  offset : Nat
  /-- The characters before the cursor. -/
  position : Nat
  /-- The token delivered last; none at the start and at the end. -/
  current : Option Token
deriving DecidableEq, Repr

namespace Cursor

/-- The cursor before the first token of a text. -/
def start (text : String) : Cursor :=
  ⟨text.toList, 0, 0, none⟩

/-- The bytes of some characters in UTF-8. -/
def byteCount (characters : List Char) : Nat :=
  characters.foldl (fun bytes c => bytes + c.utf8Size) 0

/-- The cursor behind some characters that it stands before. -/
def pass (characters : List Char) (cursor : Cursor) : Cursor :=
  { cursor with
    rest := cursor.rest.drop characters.length
    offset := cursor.offset + byteCount characters
    position := cursor.position + characters.length }

def passBlanks (cursor : Cursor) : Cursor :=
  cursor.pass (cursor.rest.takeWhile Text.isBlank)

/-- The token that begins at the cursor; none at the end of the text. -/
def token? (cursor : Cursor) : Except Failure (Option Token) :=
  match cursor.rest with
  | [] => .ok none
  | first :: _ =>
    match TokenKind.ofFirst? first with
    | some kind => .ok (some ⟨kind, kind.front cursor.rest, cursor.position⟩)
    | none => .error (.invalidCharacter first cursor.position)

/-- The cursor behind the next token, and the failure if there is no such token. -/
def advance (cursor : Cursor) : Cursor × Option Failure :=
  let cursor := cursor.passBlanks
  match cursor.token? with
  | .ok (some token) => ({ cursor.pass token.content with current := some token }, none)
  | .ok none => ({ cursor with current := none }, none)
  | .error failure => (cursor, some failure)

/-- Whether a character comes right behind the cursor. -/
def isBefore (cursor : Cursor) (c : Char) : Bool :=
  cursor.rest.head? = some c

theorem passBlanks_rest_length_le (cursor : Cursor) :
    cursor.passBlanks.rest.length ≤ cursor.rest.length := by
  simp [passBlanks, pass]

/-- An advance that delivers a token leaves less text to be read. -/
theorem advance_rest_length_lt {cursor next : Cursor} {token : Token} {failure : Option Failure}
    (moved : cursor.advance = (next, failure)) (success : failure = none)
    (delivered : next.current = some token) : next.rest.length < cursor.rest.length := by
  have bound := passBlanks_rest_length_le cursor
  unfold advance at moved
  generalize cursor.passBlanks = here at *
  unfold token? at moved
  rcases text : here.rest with _ | ⟨first, rest⟩ <;> simp only [text] at moved
  · cases moved; simp at delivered
  · rcases kind : TokenKind.ofFirst? first with _ | found <;> simp only [kind] at moved
    · cases moved; simp at success
    · cases moved
      have nonempty := List.length_pos_iff.mpr (TokenKind.front_ne_nil rest kind)
      simp only [pass, text, List.length_drop, List.length_cons] at bound ⊢
      omega

end Cursor

end Calculator
