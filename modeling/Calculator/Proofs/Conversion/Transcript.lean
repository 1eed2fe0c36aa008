import Calculator.Calculation
import Calculator.Proofs.Conversion.RunStep
import Calculator.Proofs.Dialogue.Alike
import Calculator.Proofs.Dialogue.Events
import Calculator.Proofs.Dialogue.Wording
import Calculator.Proofs.Text.Trimming

/-!
# The transcript of a calculation

Everything that a calculation notes and asks follows from its tokens and the answers.
Each token is noted when it is read; if it is a variable the source is asked for it, and
its value is noted if the answer has one. Then comes the next token, up to the first
that cannot be handled. The postfix order and the value are noted last, if they exist.
-/
namespace Calculator

/-- The variable that a token is. -/
def Token.letter? (token : Token) : Option Char :=
  match token.kind, token.content with
  | .identifier, [name] => some name
  | _, _ => none

def lettersOf (tokens : List Token) : List Char :=
  tokens.filterMap Token.letter?

namespace Source

variable {σ : Type}

/-- The question for a variable, and the note of its value if the answer is a numeral. -/
def inquiry (source : Source σ) (state : σ) (name : Char) : List Event :=
  .asked name ::
    match (source.answer name state).1 with
    | .error _ => []
    | .ok answer =>
      match Number.read? (Text.trim answer.toList) with
      | some value => [.noted (.assigned name value)]
      | none => []

/-- The note of every token in order, each with the inquiry that the token calls for. -/
def transcript (source : Source σ) (state : σ) : List Token → List Event
  | [] => []
  | token :: tokens =>
    .noted (.scanned token) :: token.letter?.toList.flatMap (source.inquiry state) ++
      source.transcript (source.after token.letter?.toList state) tokens

end Source

/-- The variables asked for among some events. -/
def asked (events : List Event) : List Char :=
  events.filterMap fun
    | .asked name => some name
    | .noted _ => none

theorem asked_append (events more : List Event) :
    asked (events ++ more) = asked events ++ asked more :=
  List.filterMap_append

theorem asked_inquiry {σ : Type} (source : Source σ) (state : σ) (name : Char) :
    asked (source.inquiry state name) = [name] := by
  rw [Source.inquiry]
  split
  · rfl
  · split <;> rfl

theorem asked_transcript {σ : Type} (source : Source σ) (tokens : List Token) :
    ∀ state, asked (source.transcript state tokens) = lettersOf tokens := by
  induction tokens with
  | nil => exact fun _ => rfl
  | cons token tokens ih =>
    intro state
    have hnote : asked [.noted (.scanned token)] = [] := rfl
    rw [Source.transcript, ← List.singleton_append, List.append_assoc, asked_append, asked_append,
      hnote, ih, List.nil_append, lettersOf, lettersOf]
    cases hl : token.letter? with
    | none => rw [List.filterMap_cons_none hl]; rfl
    | some name =>
      rw [Option.toList_some, List.flatMap_singleton, asked_inquiry, List.filterMap_cons_some hl]
      rfl

/-! ## One token -/

namespace Symbol

/-- The variable that a symbol asks for. -/
def letter? : Symbol → Option Char
  | letter name => some name
  | _ => none

end Symbol

theorem Lexeme.symbol_of_letter {lexeme : Lexeme} {name : Char}
    (h : lexeme.token.letter? = some name) (leading : Bool) :
    lexeme.symbol leading = .ok (.letter name) := by
  obtain ⟨⟨kind, content, position⟩, opens⟩ := lexeme
  rw [Token.letter?] at h
  split at h
  · rename_i hk hc
    cases h
    dsimp only at hk hc
    subst hk hc
    rfl
  · cases h

theorem Lexeme.letter?_of_identifierSymbol {lexeme : Lexeme} {symbol : Symbol}
    (hk : lexeme.token.kind = .identifier) (h : lexeme.identifierSymbol = .ok symbol) :
    symbol.letter? = lexeme.token.letter? := by
  rw [Token.letter?, hk]
  rw [identifierSymbol] at h
  split at h
  · rename_i name hc
    cases h
    rw [hc]
    rfl
  · rename_i hc
    split at h
    · cases h
      split
      · rename_i name _ hn
        exact absurd hn (hc name)
      · rfl
    · cases h

/-- A symbol asks for the variable that its token is. -/
theorem Lexeme.letter?_of_symbol {lexeme : Lexeme} {leading : Bool} {symbol : Symbol}
    (h : lexeme.symbol leading = .ok symbol) : symbol.letter? = lexeme.token.letter? := by
  rw [Lexeme.symbol] at h
  split at h
  · rename_i hk
    rw [Token.letter?, hk]
    split at h
    · cases h
      rfl
    · cases h
  · rename_i hk
    exact letter?_of_identifierSymbol hk h
  · rename_i hk
    rw [Token.letter?, hk]
    rw [Token.operatorSymbol] at h
    split at h
    · cases h
      rfl
    · split at h
      · cases h
        rfl
      · cases h
  · rename_i hk
    rw [Token.letter?, hk]
    split at h
    · cases h
      rfl
    · cases h
      rfl

namespace Conversion

variable {σ : Type} (source : Source σ) (state : σ)

theorem run_askValue (name : Char) :
    ((askValue name).run source state).events = source.inquiry state name ∧
      ((askValue name).run source state).state = (source.answer name state).2 := by
  rw [askValue, Dialogue.run_ask, Source.inquiry]
  rcases source.answer name state with ⟨failure | answer, after⟩
  · exact ⟨rfl, rfl⟩
  · dsimp only
    rw [readAnswer]
    cases Number.read? (Text.trim answer.toList) with
    | none => exact ⟨rfl, rfl⟩
    | some value => exact ⟨rfl, rfl⟩

/-- Of the symbols only variables have effects. -/
theorem run_addSymbol (yard : ShuntingYard) (symbol : Symbol) :
    ((addSymbol yard symbol).run source state).events =
        symbol.letter?.toList.flatMap (source.inquiry state) ∧
      ((addSymbol yard symbol).run source state).state =
        source.after symbol.letter?.toList state := by
  cases symbol with
  | letter name =>
    obtain ⟨hevents, hstate⟩ := run_askValue source state name
    rw [addSymbol, Dialogue.run_bind, Symbol.letter?, Option.toList_some, List.flatMap_singleton]
    cases ho : ((askValue name).run source state).outcome with
    | error failure =>
      rw [Run.andThen_of_error ho]
      exact ⟨hevents, hstate⟩
    | ok value =>
      rw [Run.andThen_of_ok ho]
      exact ⟨(List.append_nil _).trans hevents, hstate⟩
  | _ => exact ⟨rfl, rfl⟩

/-- The yard has taken the mark of the symbol; of an answer only the value is in it. -/
theorem exists_add_of_addSymbol {source : Source σ} {state : σ} {yard : ShuntingYard}
    {symbol : Symbol} {next : Conversion}
    (h : ((addSymbol yard symbol).run source state).outcome = .ok next) :
    ∃ answer, yard.add (symbol.mark answer) = .ok next.yard ∧ next.place = symbol.place := by
  cases symbol with
  | letter name =>
    rw [addSymbol, Dialogue.run_bind] at h
    cases ho : ((askValue name).run source state).outcome with
    | error failure =>
      rw [Run.andThen_of_error ho] at h
      cases h
    | ok value =>
      rw [Run.andThen_of_ok ho] at h
      cases h
      exact ⟨value, rfl, rfl⟩
  | closing =>
    change yard.closeGroup.map (Conversion.mk · .inner) = .ok next at h
    cases hc : yard.closeGroup with
    | error failure =>
      rw [hc] at h
      cases h
    | ok closed =>
      rw [hc] at h
      cases h
      exact ⟨0, hc, rfl⟩
  | _ =>
    cases h
    exact ⟨0, rfl, rfl⟩

/-- A token is noted and then asked for, if it is a variable. Behind a name it must not be one. -/
theorem run_addLexeme {conversion : Conversion} {lexeme : Lexeme}
    (hname : conversion.place = .behindName → lexeme.token.letter? = none) :
    ((conversion.addLexeme lexeme).run source state).events =
        .noted (.scanned lexeme.token) ::
          lexeme.token.letter?.toList.flatMap (source.inquiry state) ∧
      ((conversion.addLexeme lexeme).run source state).state =
        source.after lexeme.token.letter?.toList state := by
  by_cases hp : conversion.place = .behindName
  · rw [addLexeme_behindName hp, hname hp]
    exact ⟨rfl, rfl⟩
  · rw [addLexeme_of_ne hp, Dialogue.run]
    cases hs : lexeme.symbol (conversion.place = .leading) with
    | error failure =>
      have hl : lexeme.token.letter? = none := by
        cases hl : lexeme.token.letter? with
        | none => rfl
        | some name =>
          rw [lexeme.symbol_of_letter hl] at hs
          cases hs
      rw [hl]
      exact ⟨rfl, rfl⟩
    | ok symbol =>
      obtain ⟨hevents, hstate⟩ := run_addSymbol source state conversion.yard symbol
      rw [Lexeme.letter?_of_symbol hs] at hevents hstate
      exact ⟨congrArg (_ :: ·) hevents, hstate⟩

/-- Only a token with an opening parenthesis right behind it is taken for a name. -/
theorem opens_of_addLexeme {source : Source σ} {state : σ} {conversion next : Conversion}
    {lexeme : Lexeme} (h : ((conversion.addLexeme lexeme).run source state).outcome = .ok next)
    (hn : next.place = .behindName) : lexeme.opens = true := by
  by_cases hp : conversion.place = .behindName
  · rw [addLexeme_behindName hp] at h
    cases h
    cases hn
  · rw [addLexeme_of_ne hp, Dialogue.run] at h
    cases hs : lexeme.symbol (conversion.place = .leading) with
    | error failure =>
      rw [hs] at h
      cases h
    | ok symbol =>
      rw [hs] at h
      obtain ⟨-, -, hplace⟩ := exists_add_of_addSymbol h
      rw [hplace] at hn
      cases symbol with
      | call function => exact (Lexeme.opens_of_symbol_eq_call hs).1
      | _ => cases hn

end Conversion

/-! ## All tokens -/

/-- A parenthesis that is right behind a token is the next token. -/
def Lexeme.Precedes (lexeme next : Lexeme) : Prop :=
  lexeme.opens = true → next.token.kind = .punctuation ∧ next.token.content = ['(']

theorem TokenStream.head_of_opening {row : List (List Char)} (h : row.head? = some ['('])
    (position : Nat) : ∀ next ∈ (ofRuns position row).lexemes.head?,
      next.token.kind = .punctuation ∧ next.token.content = ['('] := by
  rcases row with _ | ⟨run, behind⟩
  · cases h
  · cases h
    have hb : Text.isBlank '(' = false := by decide
    have hf : TokenKind.ofFirst? '(' = some .punctuation := by decide
    intro next hn
    rw [ofRuns, if_neg (by rw [hb]; exact Bool.false_ne_true), hf] at hn
    cases hn
    exact ⟨rfl, rfl⟩

theorem TokenStream.isChain_ofRuns (row : List (List Char)) :
    ∀ position, (ofRuns position row).lexemes.IsChain Lexeme.Precedes := by
  induction row with
  | nil => exact fun _ => .nil
  | cons run behind ih =>
    intro position
    rcases run with _ | ⟨first, others⟩
    · exact ih position
    · rw [ofRuns]
      split
      · exact ih _
      · split
        · refine (ih _).cons fun next hn ho => ?_
          exact head_of_opening (of_decide_eq_true ho) _ next hn
        · exact .nil

namespace Conversion

variable {σ : Type}

/-- The tokens of a row that a conversion handles: all of them, or those up to the first whose
handling fails. -/
inductive Handles (source : Source σ) (state : σ) (conversion : Conversion)
    (lexemes : List Lexeme) : List Lexeme → Prop
  | all {after : Conversion}
      (h : ((conversion.addLexemes lexemes).run source state).outcome = .ok after) :
      Handles source state conversion lexemes lexemes
  | upTo {before behind : List Lexeme} {lexeme : Lexeme} {between : Conversion}
      {failure : Failure} (split : lexemes = before ++ lexeme :: behind)
      (succeeds : ((conversion.addLexemes before).run source state).outcome = .ok between)
      (fails : ((conversion.addLexemes (before ++ [lexeme])).run source state).outcome =
        .error failure) :
      Handles source state conversion lexemes (before ++ [lexeme])

theorem addLexemes_cons (conversion : Conversion) (lexeme : Lexeme) (lexemes : List Lexeme) :
    conversion.addLexemes (lexeme :: lexemes) =
      conversion.addLexeme lexeme >>= fun next => next.addLexemes lexemes :=
  List.foldlM_cons

variable {source : Source σ} {state : σ} {conversion next : Conversion} {lexeme : Lexeme}
  {lexemes handled : List Lexeme}

theorem run_addLexemes_cons (h : ((conversion.addLexeme lexeme).run source state).outcome = .ok next)
    (lexemes : List Lexeme) :
    (conversion.addLexemes (lexeme :: lexemes)).run source state =
      let step := (conversion.addLexeme lexeme).run source state
      let rest := (next.addLexemes lexemes).run source step.state
      ⟨step.events ++ rest.events, rest.outcome, rest.state⟩ := by
  rw [addLexemes_cons, Dialogue.run_bind, Run.andThen_of_ok h]

theorem run_addLexemes_cons_of_error {failure : Failure}
    (h : ((conversion.addLexeme lexeme).run source state).outcome = .error failure)
    (lexemes : List Lexeme) :
    (conversion.addLexemes (lexeme :: lexemes)).run source state =
      let step := (conversion.addLexeme lexeme).run source state
      ⟨step.events, .error failure, step.state⟩ := by
  rw [addLexemes_cons, Dialogue.run_bind, Run.andThen_of_error h]

theorem Handles.first {failure : Failure}
    (h : ((conversion.addLexeme lexeme).run source state).outcome = .error failure)
    (lexemes : List Lexeme) : Handles source state conversion (lexeme :: lexemes) [lexeme] := by
  have hsplit : lexeme :: lexemes = [] ++ lexeme :: lexemes := rfl
  have hsucceeds : ((conversion.addLexemes []).run source state).outcome = .ok conversion := rfl
  have hfails : ((conversion.addLexemes ([] ++ [lexeme])).run source state).outcome =
      .error failure := by
    rw [List.nil_append, run_addLexemes_cons_of_error h]
  exact .upTo hsplit hsucceeds hfails

theorem Handles.cons (h : ((conversion.addLexeme lexeme).run source state).outcome = .ok next)
    (hh : Handles source ((conversion.addLexeme lexeme).run source state).state next lexemes
      handled) : Handles source state conversion (lexeme :: lexemes) (lexeme :: handled) := by
  have hlift : ∀ row, ((conversion.addLexemes (lexeme :: row)).run source state).outcome =
      ((next.addLexemes row).run source
        ((conversion.addLexeme lexeme).run source state).state).outcome := by
    intro row
    rw [run_addLexemes_cons h]
  cases hh with
  | all ho => exact .all ((hlift lexemes).trans ho)
  | @upTo before behind last between failure split succeeds fails =>
    have hsplit : lexeme :: lexemes = (lexeme :: before) ++ last :: behind := by
      rw [split, List.cons_append]
    exact .upTo hsplit ((hlift before).trans succeeds) ((hlift (before ++ [last])).trans fails)

/-- The induction is on the tokens. Behind a name comes its parenthesis, which is no variable. -/
theorem run_addLexemes (source : Source σ) (lexemes : List Lexeme) :
    ∀ (conversion : Conversion) (state : σ),
      (conversion.place = .behindName →
        ∀ next ∈ lexemes.head?, next.token.kind = .punctuation ∧ next.token.content = ['(']) →
      lexemes.IsChain Lexeme.Precedes →
      ∃ handled, Handles source state conversion lexemes handled ∧
        ((conversion.addLexemes lexemes).run source state).events =
          source.transcript state (handled.map Lexeme.token) := by
  induction lexemes with
  | nil =>
    intro conversion state _ _
    have ho : ((conversion.addLexemes []).run source state).outcome = .ok conversion := rfl
    exact ⟨[], .all ho, rfl⟩
  | cons lexeme lexemes ih =>
    intro conversion state hplace hchain
    have hname : conversion.place = .behindName → lexeme.token.letter? = none := by
      intro hp
      rw [Token.letter?, (hplace hp lexeme rfl).1]
    obtain ⟨hevents, hstate⟩ := run_addLexeme source state hname
    cases ho : ((conversion.addLexeme lexeme).run source state).outcome with
    | error failure =>
      refine ⟨[lexeme], .first ho lexemes, ?_⟩
      rw [run_addLexemes_cons_of_error ho]
      exact hevents.trans (List.append_nil _).symm
    | ok next =>
      have hnext : next.place = .behindName → ∀ first ∈ lexemes.head?,
          first.token.kind = .punctuation ∧ first.token.content = ['('] := by
        intro hp first hf
        rcases lexemes with _ | ⟨second, rest⟩
        · cases hf
        · cases hf
          exact (List.isChain_cons_cons.mp hchain).1 (opens_of_addLexeme ho hp)
      obtain ⟨handled, hh, he⟩ := ih next _ hnext hchain.tail
      refine ⟨lexeme :: handled, hh.cons ho, ?_⟩
      rw [run_addLexemes_cons ho]
      dsimp only
      rw [he, hevents, hstate]
      rfl

end Conversion

/-! ## The whole calculation -/

/-- The note of a result, if there is one. -/
def noteOf {α : Type} (record : α → Record) : Except Failure α → List Event
  | .ok value => [.noted (record value)]
  | .error _ => []

theorem asked_noteOf {α : Type} (record : α → Record) (outcome : Except Failure α) :
    asked (noteOf record outcome) = [] := by
  cases outcome <;> rfl

variable {σ : Type} (source : Source σ) (state : σ)

theorem events_finish (conversion : Conversion) (ending : Option Failure) :
    ((conversion.finish ending).run source state).events =
      noteOf .converted ((conversion.finish ending).run source state).outcome := by
  cases ending with
  | some failure => rfl
  | none =>
    rw [Conversion.finish]
    cases conversion.yard.finish <;> rfl

theorem events_convert (expression : String) :
    ∃ handled, Conversion.Handles source state .start (TokenStream.ofString expression).lexemes
        handled ∧
      ((convert expression).run source state).events =
        source.transcript state (handled.map Lexeme.token) ++
          noteOf .converted ((convert expression).run source state).outcome := by
  have hchain : (TokenStream.ofString expression).lexemes.IsChain Lexeme.Precedes := by
    rw [TokenStream.ofString_eq_ofRuns]
    exact TokenStream.isChain_ofRuns _ 0
  obtain ⟨handled, hh, he⟩ := Conversion.run_addLexemes source _ .start state nofun hchain
  refine ⟨handled, hh, ?_⟩
  rw [convert, TokenStream.convert, Dialogue.run_bind]
  cases ho : ((Conversion.start.addLexemes (TokenStream.ofString expression).lexemes).run source
      state).outcome with
  | error failure =>
    rw [Run.andThen_of_error ho, he]
    exact (List.append_nil _).symm
  | ok conversion =>
    rw [Run.andThen_of_ok ho, he]
    exact congrArg _ (events_finish source _ conversion _)

theorem events_calculate (expression : String) :
    ((calculate expression).run source state).events =
      ((convert expression).run source state).events ++
        noteOf (.calculated (Text.trimmed expression))
          ((calculate expression).run source state).outcome := by
  rw [calculate, Dialogue.run_bind]
  cases ho : ((convert expression).run source state).outcome with
  | error failure =>
    rw [Run.andThen_of_error ho]
    exact (List.append_nil _).symm
  | ok nodes =>
    rw [Run.andThen_of_ok ho]
    dsimp only
    cases evaluate nodes <;> rfl

/-- Nothing is asked once the conversion has ended. -/
theorem requests_calculate (text : String) :
    ((calculate text).run source state).requests = ((convert text).run source state).requests := by
  change asked ((calculate text).run source state).events = _
  rw [events_calculate, asked_append, asked_noteOf, List.append_nil]
  rfl

/-- What a calculation notes and asks, in order: its tokens up to the first that cannot be handled,
with one question for each variable, then the postfix order if the conversion succeeds, then
the value if there is one, with the expression as written apart from blanks around it. Each note
stands in the log with its level and its words. -/
theorem calculate_transcript (expression : String) :
    ∃ handled, Conversion.Handles source state .start (TokenStream.ofString expression).lexemes
        handled ∧
      let run := (calculate expression).run source state
      run.events = source.transcript state (handled.map Lexeme.token) ++
        noteOf .converted ((convert expression).run source state).outcome ++
        noteOf (.calculated (Text.trimmed expression)) run.outcome ∧
      Text.Trims expression.toList (Text.trimmed expression).toList ∧
      run.requests = lettersOf (handled.map Lexeme.token) ∧
      ∀ record ∈ run.records, record.Logged record.level record.message := by
  obtain ⟨handled, hh, he⟩ := events_convert source state expression
  refine ⟨handled, hh, ?_⟩
  have hevents := events_calculate source state expression
  rw [he] at hevents
  refine ⟨hevents, Text.trims_trimmed expression, ?_, fun record _ => record.logged⟩
  change asked ((calculate expression).run source state).events = _
  rw [hevents, asked_append, asked_append, asked_transcript, asked_noteOf, asked_noteOf,
    List.append_nil, List.append_nil]

end Calculator
