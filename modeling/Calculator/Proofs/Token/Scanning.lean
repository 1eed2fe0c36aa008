import Calculator.Proofs.Text.Runs
import Calculator.Token.Stream

/-!
# Scanning run by run

The stream of a cursor depends on nothing but the text before it and its place. Blanks
leave no trace in it; every other run is one token, up to the first character that
begins none.
-/
namespace Calculator

open Text TokenKind

/-- The tokens that a row of runs writes from a place on. -/
def TokenStream.ofRuns (position : Nat) : List (List Char) → TokenStream
  | [] => ⟨[], none⟩
  | [] :: behind => ofRuns position behind
  | (first :: others) :: behind =>
    if isBlank first then ofRuns (position + 1) behind
    else
      match ofFirst? first with
      | some kind =>
        (ofRuns (position + (first :: others).length) behind).cons
          ⟨⟨kind, first :: others, position⟩, behind.head? = some ['(']⟩
      | none => ⟨[], some (.invalidCharacter first position)⟩

namespace Cursor

theorem byteCount_cons (c : Char) (text : List Char) :
    byteCount (c :: text) = c.utf8Size + byteCount text := by
  have hfold : ∀ (l : List Char) (k : Nat),
      l.foldl (fun bytes c => bytes + c.utf8Size) k =
        k + l.foldl (fun bytes c => bytes + c.utf8Size) 0 := by
    intro l
    induction l with
    | nil => intro k; rfl
    | cons d l ih =>
      intro k
      rw [List.foldl_cons, List.foldl_cons, ih, ih (0 + d.utf8Size)]
      omega
  rw [byteCount, List.foldl_cons, hfold, byteCount]
  omega

/-- The recursion of a stream, without the evidence that it ends. -/
theorem stream_eq (cursor : Cursor) :
    cursor.stream = match cursor.advance with
      | (_, some failure) => ⟨[], some failure⟩
      | (next, none) => match next.current with
        | none => ⟨[], none⟩
        | some token => next.stream.cons ⟨token, next.isBefore '('⟩ := by
  rw [stream]
  split
  · rename_i hm
    rw [hm]
  · rename_i next hm
    rw [hm]
    dsimp only
    split <;> rename_i hd <;> rw [hd]

theorem passBlanks_of_isBlank {cursor : Cursor} {b : Char} {rest : List Char}
    (hr : cursor.rest = b :: rest) (hb : isBlank b = true) :
    cursor.passBlanks = (cursor.pass [b]).passBlanks := by
  simp only [passBlanks, pass, hr, List.takeWhile_cons, hb, if_true, List.length_cons,
    List.length_nil, List.drop_succ_cons, List.drop_zero, byteCount_cons]
  simp [byteCount, Nat.add_assoc, Nat.add_comm, Nat.add_left_comm]

theorem stream_of_isBlank {cursor : Cursor} {b : Char} {rest : List Char}
    (hr : cursor.rest = b :: rest) (hb : isBlank b = true) :
    cursor.stream = (cursor.pass [b]).stream := by
  have ha : cursor.advance = (cursor.pass [b]).advance := by
    rw [advance, advance, passBlanks_of_isBlank hr hb]
  rw [stream_eq, stream_eq (cursor.pass [b]), ha]

theorem passBlanks_eq_self {cursor : Cursor} (h : ∀ c ∈ cursor.rest.head?, isBlank c = false) :
    cursor.passBlanks = cursor := by
  have ht : cursor.rest.takeWhile isBlank = [] := by
    cases hr : cursor.rest with
    | nil => rfl
    | cons c rest =>
      rw [List.takeWhile_cons, h c (by rw [hr]; rfl)]
      rfl
  rw [passBlanks, ht]
  simp [pass, byteCount]

theorem stream_of_nil {cursor : Cursor} (hr : cursor.rest = []) : cursor.stream = ⟨[], none⟩ := by
  have hp : cursor.passBlanks = cursor := passBlanks_eq_self (by simp [hr])
  rw [stream_eq, advance, hp, token?, hr]

theorem stream_of_none {cursor : Cursor} {c : Char} {rest : List Char}
    (hr : cursor.rest = c :: rest) (hb : isBlank c = false) (hf : ofFirst? c = none) :
    cursor.stream = ⟨[], some (.invalidCharacter c cursor.position)⟩ := by
  have hp : cursor.passBlanks = cursor := passBlanks_eq_self (by simpa [hr] using hb)
  rw [stream_eq, advance, hp, token?, hr]
  simp only [hf]

theorem stream_of_some {cursor : Cursor} {c : Char} {rest : List Char} {kind : TokenKind}
    (hr : cursor.rest = c :: rest) (hb : isBlank c = false) (hf : ofFirst? c = some kind) :
    cursor.stream =
      let token : Token := ⟨kind, kind.front cursor.rest, cursor.position⟩
      let next := { cursor.pass token.content with current := some token }
      next.stream.cons ⟨token, next.isBefore '('⟩ := by
  have hp : cursor.passBlanks = cursor := passBlanks_eq_self (by simpa [hr] using hb)
  rw [stream_eq, advance, hp, token?, hr]
  simp only [hf]

/-- Of a row of runs, an opening parenthesis is first exactly as a run of its own. -/
theorem head?_flatten_eq_iff {row : List (List Char)} (h : AreRuns row) :
    row.flatten.head? = some '(' ↔ row.head? = some ['('] := by
  cases row with
  | nil => simp
  | cons run behind =>
    cases run with
    | nil => exact absurd rfl h.ne_nil
    | cons first others =>
      simp only [List.flatten_cons, List.cons_append, List.head?_cons, Option.some.injEq,
        List.cons.injEq]
      constructor
      · rintro rfl
        exact ⟨rfl, h.others_eq_nil (by decide)⟩
      · exact fun hf => hf.1

/-- A cursor before a row of runs delivers what they write. -/
theorem stream_eq_ofRuns {row : List (List Char)} (h : AreRuns row) :
    ∀ cursor : Cursor, cursor.rest = row.flatten →
      cursor.stream = TokenStream.ofRuns cursor.position row := by
  induction row with
  | nil =>
    intro cursor hr
    rw [stream_of_nil hr, TokenStream.ofRuns]
  | cons run behind ih =>
    intro cursor hr
    cases run with
    | nil => exact absurd rfl h.ne_nil
    | cons first others =>
      rw [List.flatten_cons, List.cons_append] at hr
      rw [TokenStream.ofRuns]
      cases hb : isBlank first with
      | true =>
        have ho := h.others_eq_nil (alone_of_isBlank hb)
        subst ho
        rw [stream_of_isBlank hr hb, if_pos rfl]
        exact ih h.tail (cursor.pass [first]) (by simp [pass, hr])
      | false =>
        rw [if_neg Bool.false_ne_true]
        cases hf : ofFirst? first with
        | none => rw [stream_of_none hr hb hf]
        | some kind =>
          have hfront : kind.front cursor.rest = first :: others := by
            rw [hr, ← List.cons_append]
            exact h.front_eq hf
          let token : Token := ⟨kind, first :: others, cursor.position⟩
          let next : Cursor := { cursor.pass (first :: others) with current := some token }
          have hrest : next.rest = behind.flatten := by simp [next, pass, hr]
          have hopens : next.isBefore '(' = decide (behind.head? = some ['(']) := by
            rw [isBefore, hrest]
            exact decide_eq_decide.mpr (head?_flatten_eq_iff h.tail)
          rw [stream_of_some hr hb hf, hfront]
          exact congrArg₂ TokenStream.cons (congrArg (Lexeme.mk token) hopens)
            (ih h.tail next hrest)

end Cursor

/-- The tokens of a text are those that its runs write. -/
theorem TokenStream.ofString_eq_ofRuns (text : String) :
    TokenStream.ofString text = TokenStream.ofRuns 0 (runs text.toList) :=
  Cursor.stream_eq_ofRuns (areRuns_runs text.toList) (Cursor.start text)
    (flatten_runs text.toList).symm

end Calculator
