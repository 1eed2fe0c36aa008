import Calculator.Proofs.Conversion.RunByRun

/-!
# One run of a reading

A run contributes at most one symbol and decides the place behind it. Of the runs behind
it only one fact counts, whether an opening parenthesis comes next, and its position
counts only where the reading fails. A row that is read to its end is therefore read in
the same way before any row that does not begin with an opening parenthesis.
-/
namespace Calculator

open Text TokenKind

/-- The reading with some symbols before its own. -/
def Reading.prepend (symbols : List Symbol) (reading : Reading) : Reading :=
  { reading with symbols := symbols ++ reading.symbols }

theorem Reading.prepend_prepend (symbols more : List Symbol) (reading : Reading) :
    (reading.prepend more).prepend symbols = reading.prepend (symbols ++ more) := by
  simp only [prepend, List.append_assoc]

/-- What one run contributes, with the place behind it. `opens` tells that an opening parenthesis
comes next. -/
def readRun (place : Place) (position : Nat) (opens : Bool) :
    List Char → Except Failure (List Symbol × Place)
  | [] => .ok ([], place)
  | first :: others =>
    if isBlank first then .ok ([], place)
    else
      match ofFirst? first with
      | none => .error (.invalidCharacter first position)
      | some kind =>
        if place = .behindName then .ok ([], .leading)
        else
          (Lexeme.symbol ⟨⟨kind, first :: others, position⟩, opens⟩ (place = .leading)).map
            fun symbol => ([symbol], symbol.place)

variable {place next : Place} {position : Nat} {opens : Bool} {run : List Char}
  {behind : List (List Char)} {symbols : List Symbol}

theorem readRuns_cons (h : AreRuns (run :: behind)) (place : Place) (position : Nat) :
    readRuns place position (run :: behind) =
      match readRun place position (behind.head? = some ['(']) run with
      | .ok (symbols, next) => (readRuns next (position + run.length) behind).prepend symbols
      | .error failure => ⟨[], some failure⟩ := by
  obtain ⟨first, others, rfl⟩ := List.exists_cons_of_ne_nil h.ne_nil
  rw [readRun]
  cases hb : isBlank first with
  | true =>
    obtain rfl := h.others_eq_nil (alone_of_isBlank hb)
    rw [readRuns_blank hb]
    rfl
  | false =>
    rw [if_neg Bool.false_ne_true]
    cases hf : ofFirst? first with
    | none => exact readRuns_illegal hb hf place
    | some kind =>
      by_cases hp : place = .behindName
      · subst hp
        exact readRuns_behindName hb hf
      · dsimp only
        rw [if_neg hp]
        cases hs : (runLexeme kind (first :: others) position behind).symbol (place = .leading) with
        | error failure =>
          rw [readRuns_failure hb hf hp hs]
          rw [runLexeme] at hs
          rw [hs]
          rfl
        | ok symbol =>
          rw [readRuns_symbol hb hf hp hs]
          rw [runLexeme] at hs
          rw [hs]
          rfl

/-- The position of a token is a part of failures only. -/
theorem Lexeme.symbol_eq_ok_of_position {kind : TokenKind} {leading : Bool} {symbol : Symbol}
    (h : Lexeme.symbol ⟨⟨kind, run, position⟩, opens⟩ leading = .ok symbol) (other : Nat) :
    Lexeme.symbol ⟨⟨kind, run, other⟩, opens⟩ leading = .ok symbol := by
  cases kind with
  | number => exact h
  | identifier => exact h
  | punctuation => exact h
  | operator =>
    change Token.operatorSymbol _ _ = _ at h ⊢
    rw [Token.operatorSymbol] at h ⊢
    split at h
    · rename_i hm
      rw [if_pos hm]
      exact h
    · rename_i hm
      rw [if_neg hm]
      split at h
      · rename_i ho
        rw [ho]
        exact h
      · cases h

/-- The three ways in which a run is read: as a blank, as the parenthesis behind a name, and as a
token with a symbol of its own. -/
theorem readRun_cases (h : readRun place position opens run = .ok (symbols, next)) :
    run = [] ∧ symbols = [] ∧ next = place ∨
    ∃ first others, run = first :: others ∧
      (isBlank first = true ∧ symbols = [] ∧ next = place ∨
        ∃ kind, isBlank first = false ∧ ofFirst? first = some kind ∧
          (place = .behindName ∧ symbols = [] ∧ next = .leading ∨
            place ≠ .behindName ∧ ∃ symbol,
              Lexeme.symbol ⟨⟨kind, run, position⟩, opens⟩ (place = .leading) = .ok symbol ∧
                symbols = [symbol] ∧ next = symbol.place)) := by
  cases run with
  | nil =>
    cases h
    exact .inl ⟨rfl, rfl, rfl⟩
  | cons first others =>
    refine .inr ⟨first, others, rfl, ?_⟩
    rw [readRun] at h
    cases hb : isBlank first with
    | true =>
      rw [if_pos hb] at h
      cases h
      exact .inl ⟨rfl, rfl, rfl⟩
    | false =>
      rw [if_neg (by rw [hb]; exact Bool.false_ne_true)] at h
      cases hf : ofFirst? first with
      | none =>
        rw [hf] at h
        cases h
      | some kind =>
        rw [hf] at h
        refine .inr ⟨kind, rfl, rfl, ?_⟩
        by_cases hp : place = .behindName
        · dsimp only at h
          rw [if_pos hp] at h
          cases h
          exact .inl ⟨hp, rfl, rfl⟩
        · dsimp only at h
          rw [if_neg hp] at h
          refine .inr ⟨hp, ?_⟩
          cases hs : Lexeme.symbol ⟨⟨kind, first :: others, position⟩, opens⟩
              (place = .leading) with
          | error failure =>
            rw [hs] at h
            cases h
          | ok symbol =>
            rw [hs] at h
            cases h
            exact ⟨symbol, rfl, rfl, rfl⟩

theorem readRun_of_symbol {first : Char} {others : List Char} {kind : TokenKind} {symbol : Symbol}
    (hb : isBlank first = false) (hf : ofFirst? first = some kind) (hp : place ≠ .behindName)
    (hs : Lexeme.symbol ⟨⟨kind, first :: others, position⟩, opens⟩ (place = .leading) =
      .ok symbol) :
    readRun place position opens (first :: others) = .ok ([symbol], symbol.place) := by
  rw [readRun, if_neg (by rw [hb]; exact Bool.false_ne_true), hf]
  dsimp only
  rw [if_neg hp, hs]
  rfl

theorem readRun_eq_ok_of_position (h : readRun place position opens run = .ok (symbols, next))
    (other : Nat) : readRun place other opens run = .ok (symbols, next) := by
  obtain ⟨rfl, -, -⟩ | ⟨first, others, rfl, ⟨hb, -, -⟩ | ⟨kind, hb, hf, h'⟩⟩ := readRun_cases h
  · exact h
  · rw [readRun, if_pos hb] at h ⊢
    exact h
  · obtain ⟨rfl, rfl, rfl⟩ | ⟨hp, symbol, hs, rfl, rfl⟩ := h'
    · rw [readRun, if_neg (by rw [hb]; exact Bool.false_ne_true), hf]
      rfl
    · exact readRun_of_symbol hb hf hp (Lexeme.symbol_eq_ok_of_position hs other)

/-- The symbol of a lexeme is a call only if it is a name with its parenthesis. -/
theorem Lexeme.opens_of_symbol_eq_call {lexeme : Lexeme} {leading : Bool}
    {function : NamedFunction} (h : lexeme.symbol leading = .ok (.call function)) :
    lexeme.opens = true ∧ lexeme.token.content = function.name := by
  rw [Lexeme.symbol] at h
  split at h
  · split at h <;> cases h
  · rw [Lexeme.identifierSymbol] at h
    split at h
    · cases h
    · split at h
      · rename_i ho hf
        cases h
        exact ⟨ho, NamedFunction.ofText?_eq_some_iff.mp hf⟩
      · cases h
  · rw [Token.operatorSymbol] at h
    split at h
    · cases h
    · split at h <;> cases h
  · split at h <;> cases h

/-- Behind a name there is its parenthesis. -/
theorem opens_of_readRun (h : readRun place position opens run = .ok (symbols, .behindName))
    (hplace : place = .behindName → run = ['(']) : opens = true := by
  obtain ⟨rfl, -, hp⟩ | ⟨first, others, rfl, ⟨hb, -, hp⟩ | ⟨kind, -, -, h'⟩⟩ := readRun_cases h
  · cases hplace hp.symm
  · cases hplace hp.symm
    exact absurd hb (by decide)
  · obtain ⟨-, -, hl⟩ | ⟨-, symbol, hs, -, hc⟩ := h'
    · cases hl
    · cases symbol with
      | call function => exact (Lexeme.opens_of_symbol_eq_call hs).1
      | _ => cases hc

/-- A row that is read to its end is read so before other rows, wherever it stands. -/
theorem readRuns_append {row more : List (List Char)} (hrow : AreRuns (row ++ more))
    (hmore : more.head? ≠ some ['(']) :
    ∀ {place : Place} {position : Nat} {symbols : List Symbol},
      (place = .behindName → row.head? = some ['(']) →
      readRuns place position row = ⟨symbols, none⟩ →
        ∃ last, last ≠ .behindName ∧ ∀ position, readRuns place position (row ++ more) =
          (readRuns last (position + row.flatten.length) more).prepend symbols := by
  induction row with
  | nil =>
    intro place position symbols hplace h
    have hp : place ≠ .behindName := fun hp => by cases hplace hp
    cases h
    exact ⟨place, hp, fun _ => rfl⟩
  | cons run behind ih =>
    intro place position symbols hplace h
    replace hplace : place = .behindName → run = ['('] := fun hp => Option.some.inj (hplace hp)
    have hopens : decide ((behind ++ more).head? = some ['(']) =
        decide (behind.head? = some ['(']) := by
      cases behind with
      | nil => simpa using hmore
      | cons next rest => rfl
    rw [readRuns_cons hrow.left] at h
    cases hr : readRun place position (behind.head? = some ['(']) run with
    | error failure =>
      rw [hr] at h
      cases h
    | ok contribution =>
      obtain ⟨first, next⟩ := contribution
      rw [hr] at h
      dsimp only at h
      rcases hrest : readRuns next (position + run.length) behind with ⟨rest, ending⟩
      rw [hrest] at h
      cases h
      have hnext : next = .behindName → behind.head? = some ['('] := by
        rintro rfl
        exact of_decide_eq_true (opens_of_readRun hr hplace)
      obtain ⟨last, hlast, hall⟩ := ih hrow.tail hnext hrest
      refine ⟨last, hlast, fun other => ?_⟩
      rw [List.cons_append] at hrow ⊢
      rw [readRuns_cons hrow, hopens, readRun_eq_ok_of_position hr other]
      dsimp only
      rw [hall, Reading.prepend_prepend, List.flatten_cons, List.length_append, Nat.add_assoc]

end Calculator
