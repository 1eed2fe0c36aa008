import Calculator.Proofs.Conversion.RunStep
import Calculator.Proofs.Dialogue.Questions
import Calculator.Proofs.Yard.Inventory

/-!
# What a conversion keeps of its tokens

The tokens of an expression tell alone which nodes its postfix order has. A minus is a sign as
the first token and right behind an opening parenthesis, and any other operator is one
between two operands. No token is lost, and no node comes from anywhere else, whether or
not the expression is well formed.
-/
namespace Calculator

open Text
open TokenKind (ofFirst?)

/-- The tokens of a text. -/
def tokens (text : String) : List Token :=
  (TokenStream.ofString text).lexemes.map Lexeme.token

namespace Token

def isOpening (token : Token) : Bool :=
  token.kind = .punctuation && token.content = ['(']

/-- Whether a token is a sign, behind another token or as the first. -/
def isSign (previous : Option Token) (token : Token) : Bool :=
  token.kind = .operator && token.content = [Operator.subtraction.symbol] &&
    previous.all isOpening

/-- The number or the variable that a token is. -/
def operand? (token : Token) : Option (Float ⊕ Char) :=
  match token.kind, token.content with
  | .number, digits => (Number.read? digits).map .inl
  | .identifier, [name] => some (.inr name)
  | _, _ => none

/-- The operator between two operands that a token is. -/
def operator? (previous : Option Token) (token : Token) : Option Operator :=
  match token.kind with
  | .operator => if token.isSign previous then none else Operator.ofText? token.content
  | _ => none

/-- The function that a token names. -/
def function? (token : Token) : Option NamedFunction :=
  match token.kind with
  | .identifier => NamedFunction.ofText? token.content
  | _ => none

end Token

/-- Tokens, each with the token before it. -/
def behindEach (previous : Option Token) (tokens : List Token) : List (Option Token × Token) :=
  (previous :: tokens.map some).zip tokens

/-- The operators between two operands. -/
def operatorsOf (previous : Option Token) (tokens : List Token) : List Operator :=
  (behindEach previous tokens).filterMap fun place => place.2.operator? place.1

def countSigns (previous : Option Token) (tokens : List Token) : Nat :=
  (behindEach previous tokens).countP fun place => place.2.isSign place.1

/-- What an operand is worth: a number itself, a variable what the source answers. -/
def Source.worth {σ : Type} (source : Source σ) : Float ⊕ Char → Answering σ Value
  | .inl number => pure (.literal number)
  | .inr name => .answered <$> source.value name

namespace Value

/-- The number that a value leaves behind; of a variable below zero it is the magnitude. -/
def magnitude : Value → Float
  | literal value => value
  | answered value => if value < 0 then -value else value

/-- Whether a value is a variable below zero. -/
def isNegative : Value → Bool
  | literal _ => false
  | answered value => value < 0

end Value

namespace Symbol

def operand? : Symbol → Option (Float ⊕ Char)
  | number value => some (.inl value)
  | letter name => some (.inr name)
  | _ => none

def operation? : Symbol → Option Operator
  | operation operator => some operator
  | _ => none

def call? : Symbol → Option NamedFunction
  | call function => some function
  | _ => none

end Symbol

/-! ## Tokens and symbols -/

/-- The symbols are what the tokens say behind this one. -/
structure Written (previous : Option Token) (tokens : List Token) (symbols : List Symbol) :
    Prop where
  operands : tokens.filterMap Token.operand? = symbols.filterMap Symbol.operand?
  operators : operatorsOf previous tokens = symbols.filterMap Symbol.operation?
  functions : tokens.filterMap Token.function? = symbols.filterMap Symbol.call?
  signs : countSigns previous tokens = symbols.count .sign

theorem Written.nil (previous : Option Token) : Written previous [] [] := ⟨rfl, rfl, rfl, rfl⟩

theorem Written.cons {previous : Option Token} {token : Token} {tokens : List Token}
    {symbols more : List Symbol} (h : Written previous [token] symbols)
    (hrest : Written (some token) tokens more) :
    Written previous (token :: tokens) (symbols ++ more) := by
  have hbehind : behindEach previous (token :: tokens) =
      behindEach previous [token] ++ behindEach (some token) tokens := rfl
  constructor
  · rw [List.filterMap_append, ← h.operands, ← hrest.operands, ← List.filterMap_append,
      List.singleton_append]
  · rw [List.filterMap_append, ← h.operators, ← hrest.operators, operatorsOf, hbehind,
      List.filterMap_append]
    rfl
  · rw [List.filterMap_append, ← h.functions, ← hrest.functions, ← List.filterMap_append,
      List.singleton_append]
  · rw [List.count_append, ← h.signs, ← hrest.signs, countSigns, hbehind, List.countP_append]
    rfl

/-- What one token says, put together from what it says of each kind. -/
theorem written_singleton {previous : Option Token} {token : Token} {symbol : Symbol}
    (hoperand : token.operand? = symbol.operand?)
    (hoperator : token.operator? previous = symbol.operation?)
    (hfunction : token.function? = symbol.call?)
    (hsign : token.isSign previous = decide (symbol = .sign)) :
    Written previous [token] [symbol] := by
  constructor
  · rw [List.filterMap_cons, List.filterMap_cons, hoperand]
    rfl
  · change [(previous, token)].filterMap _ = _
    rw [List.filterMap_cons, List.filterMap_cons, hoperator]
    rfl
  · rw [List.filterMap_cons, List.filterMap_cons, hfunction]
    rfl
  · change [(previous, token)].countP _ = _
    rw [List.countP_singleton, List.count_singleton, hsign]
    simp

theorem written_parenthesis {token : Token} (h : token.kind = .punctuation)
    (previous : Option Token) : Written previous [token] [] := by
  obtain ⟨kind, content, position⟩ := token
  cases h
  exact ⟨rfl, rfl, rfl, rfl⟩

theorem Written.parenthesis {previous : Option Token} {token : Token} {symbol : Symbol}
    (h : Written previous [token] []) (hs : symbol = .opening ∨ symbol = .closing) :
    Written previous [token] [symbol] := by
  rcases hs with rfl | rfl
  · exact ⟨h.operands, h.operators, h.functions, h.signs⟩
  · exact ⟨h.operands, h.operators, h.functions, h.signs⟩

theorem written_operator {token : Token} {previous : Option Token} {symbol : Symbol}
    (hk : token.kind = .operator)
    (h : token.operatorSymbol (previous.all Token.isOpening) = .ok symbol) :
    Written previous [token] [symbol] ∧ symbol.place = .inner := by
  obtain ⟨kind, content, position⟩ := token
  cases hk
  have hsign : Token.isSign previous ⟨.operator, content, position⟩ =
      (previous.all Token.isOpening && content = [Operator.subtraction.symbol]) := by
    rw [Token.isSign, Bool.and_comm]
    rfl
  rw [Token.operatorSymbol, ← hsign] at h
  split at h
  · rename_i hs
    cases h
    refine ⟨written_singleton rfl ?_ rfl (hs.trans rfl), rfl⟩
    exact if_pos hs
  · rename_i hs
    split at h
    · rename_i operator ho
      cases h
      refine ⟨written_singleton rfl ?_ rfl (Bool.not_eq_true _ ▸ hs), rfl⟩
      exact (if_neg hs).trans ho
    · cases h

theorem written_identifier {lexeme : Lexeme} {previous : Option Token} {symbol : Symbol}
    (hk : lexeme.token.kind = .identifier) (h : lexeme.identifierSymbol = .ok symbol) :
    Written previous [lexeme.token] [symbol] ∧ symbol.place ≠ .leading := by
  obtain ⟨⟨kind, content, position⟩, opens⟩ := lexeme
  cases hk
  rw [Lexeme.identifierSymbol] at h
  split at h
  · rename_i name hc
    cases h
    cases hc
    have hname : NamedFunction.ofText? [name] = none := by
      rw [Option.eq_none_iff_forall_ne_some]
      intro function hf
      exact name_ne_singleton function name (NamedFunction.ofText?_eq_some_iff.mp hf).symm
    exact ⟨written_singleton rfl rfl hname rfl, fun hp => by cases hp⟩
  · rename_i hc
    split at h
    · rename_i function _ hf
      cases h
      refine ⟨written_singleton ?_ rfl hf rfl, fun hp => by cases hp⟩
      rw [NamedFunction.ofText?_eq_some_iff] at hf
      subst hf
      cases function <;> rfl
    · cases h

theorem written_number {token : Token} {previous : Option Token} {value : Float}
    (hk : token.kind = .number) (h : Number.read? token.content = some value) :
    Written previous [token] [.number value] := by
  obtain ⟨kind, content, position⟩ := token
  cases hk
  exact written_singleton (congrArg (Option.map Sum.inl) h) rfl rfl rfl

/-- A token with a symbol of its own says what the symbol is, and the place behind it. -/
theorem written_symbol {lexeme : Lexeme} {previous : Option Token} {symbol : Symbol}
    (h : lexeme.symbol (previous.all Token.isOpening) = .ok symbol) :
    Written previous [lexeme.token] [symbol] ∧
      (symbol.place ≠ .behindName → decide (symbol.place = .leading) = lexeme.token.isOpening) := by
  rw [Lexeme.symbol] at h
  split at h
  · rename_i hk
    split at h
    · rename_i value hv
      cases h
      refine ⟨written_number hk hv, fun _ => ?_⟩
      rw [Token.isOpening, hk]
      rfl
    · cases h
  · rename_i hk
    obtain ⟨hw, hp⟩ := written_identifier hk h
    refine ⟨hw, fun _ => ?_⟩
    rw [Token.isOpening, hk, decide_eq_false hp]
    rfl
  · rename_i hk
    obtain ⟨hw, hp⟩ := written_operator hk h
    refine ⟨hw, fun _ => ?_⟩
    rw [Token.isOpening, hk, hp]
    rfl
  · rename_i hk
    have hwritten := written_parenthesis hk previous
    split at h
    · rename_i hc
      cases h
      refine ⟨hwritten.parenthesis (.inl rfl), fun _ => ?_⟩
      rw [Token.isOpening, hk, hc]
      rfl
    · rename_i hc
      cases h
      refine ⟨hwritten.parenthesis (.inr rfl), fun _ => ?_⟩
      rw [Token.isOpening, decide_eq_false hc, Bool.and_false]
      rfl

/-- The induction is on the runs. The place is known from the token before, and behind a name from
the parenthesis that comes next. -/
theorem written_of_readRuns {row : List (List Char)} :
    ∀ {place : Place} {position : Nat} {previous : Option Token} {symbols : List Symbol},
      (place ≠ .behindName → decide (place = .leading) = previous.all Token.isOpening) →
      (place = .behindName → row.head? = some ['(']) →
      readRuns place position row = ⟨symbols, none⟩ →
        Written previous ((TokenStream.ofRuns position row).lexemes.map Lexeme.token) symbols := by
  induction row with
  | nil =>
    intro place position previous symbols _ _ h
    cases h
    exact .nil previous
  | cons run behind ih =>
    intro place position previous symbols hplace hname h
    rcases run with _ | ⟨first, others⟩
    · exact ih hplace (fun hp => by cases hname hp) h
    · cases hb : isBlank first with
      | true =>
        have hp : place ≠ .behindName := by
          intro hp
          cases hname hp
          exact absurd hb (by decide)
        rw [readRuns, TokenStream.ofRuns, if_pos hb] at h
        rw [TokenStream.ofRuns, if_pos hb]
        exact ih hplace (fun he => absurd he hp) h
      | false =>
        cases hf : ofFirst? first with
        | none =>
          rw [readRuns_illegal hb hf] at h
          cases h
        | some kind =>
          rw [TokenStream.ofRuns, if_neg (by rw [hb]; exact Bool.false_ne_true), hf]
          by_cases hp : place = .behindName
          · subst hp
            rw [readRuns_behindName hb hf] at h
            cases hname rfl
            obtain rfl : kind = .punctuation := Option.some.inj (hf.symm.trans (by decide))
            exact (written_parenthesis rfl previous).cons
              (@ih .leading _ _ _ (fun _ => rfl) (fun hp => by cases hp) h)
          · cases hs : (runLexeme kind (first :: others) position behind).symbol
                (place = .leading) with
            | error failure =>
              rw [readRuns_failure hb hf hp hs] at h
              cases h
            | ok symbol =>
              rw [readRuns_symbol hb hf hp hs] at h
              rcases hr : readRuns symbol.place (position + (first :: others).length) behind with
                ⟨rest, ending⟩
              rw [hr] at h
              cases h
              rw [hplace hp] at hs
              obtain ⟨hw, hnext⟩ := written_symbol hs
              refine hw.cons (ih hnext ?_ hr)
              intro hcall
              cases symbol with
              | call function =>
                exact of_decide_eq_true (Lexeme.opens_of_symbol_eq_call hs).1
              | _ => cases hcall

theorem written_tokens {text : String} {symbols : List Symbol}
    (h : readRuns .leading 0 (runs text.toList) = ⟨symbols, none⟩) :
    Written none (tokens text) symbols := by
  rw [tokens, TokenStream.ofString_eq_ofRuns]
  exact @written_of_readRuns _ .leading _ _ _ (fun _ => rfl) nofun h

/-! ## Symbols and nodes -/

/-- Nodes that come from these operands, operators and functions and from this many signs. -/
structure Accounts (values : List Value) (operators : List Operator)
    (functions : List NamedFunction) (signs : Nat) (nodes : List Node) : Prop where
  numbers : numbers nodes = values.map Value.magnitude
  operations : nodes.filterMap Node.operation? = operators
  calls : nodes.filterMap Node.call? = functions
  negations : nodes.count .negation = signs + values.countP Value.isNegative

theorem Accounts.append {values others : List Value} {operators more : List Operator}
    {functions rest : List NamedFunction} {signs count : Nat} {nodes behind : List Node}
    (h : Accounts values operators functions signs nodes)
    (hbehind : Accounts others more rest count behind) :
    Accounts (values ++ others) (operators ++ more) (functions ++ rest) (signs + count)
      (nodes ++ behind) := by
  constructor
  · rw [numbers_append, h.numbers, hbehind.numbers, List.map_append]
  · rw [List.filterMap_append, h.operations, hbehind.operations]
  · rw [List.filterMap_append, h.calls, hbehind.calls]
  · rw [List.count_append, h.negations, hbehind.negations, List.countP_append]
    omega

theorem accounts_value (value : Value) : Accounts [value] [] [] 0 value.nodes := by
  cases value with
  | literal number => exact ⟨rfl, rfl, rfl, rfl⟩
  | answered number =>
    rw [Value.nodes]
    split
    · rename_i hn
      refine ⟨?_, rfl, rfl, ?_⟩
      · exact congrArg (fun x => [x]) (if_pos hn).symm
      · rw [List.countP_singleton, Value.isNegative, decide_eq_true hn]
        rfl
    · rename_i hn
      refine ⟨?_, rfl, rfl, ?_⟩
      · exact congrArg (fun x => [x]) (if_neg hn).symm
      · rw [List.countP_singleton, Value.isNegative, decide_eq_false hn]
        rfl

variable {σ : Type} {source : Source σ}

/-- A resolved symbol brings what it stands for. -/
theorem accounts_symbol {symbol : Symbol} {mark : Mark Value} {state after : σ}
    (h : (symbol.resolve source).run state = .ok (mark, after)) :
    ∃ values, (symbol.operand?.toList.mapM source.worth).run state = .ok (values, after) ∧
      Accounts values symbol.operation?.toList symbol.call?.toList ([symbol].count .sign)
        mark.nodes := by
  cases symbol with
  | number value =>
    cases h
    exact ⟨[.literal value], rfl, accounts_value _⟩
  | letter name =>
    rw [Symbol.resolve, Answering.run_map_eq_ok_iff] at h
    obtain ⟨value, hv, rfl⟩ := h
    have hworth : (source.worth (.inr name)).run state = .ok (.answered value, after) :=
      Answering.run_map_eq_ok_iff.mpr ⟨value, hv, rfl⟩
    refine ⟨[.answered value], ?_, accounts_value _⟩
    exact Answering.run_mapM_cons_iff.mpr ⟨_, [], after, hworth, rfl, rfl⟩
  | call function =>
    cases h
    exact ⟨[], rfl, rfl, rfl, rfl, rfl⟩
  | sign =>
    cases h
    exact ⟨[], rfl, rfl, rfl, rfl, rfl⟩
  | operation operator =>
    cases h
    exact ⟨[], rfl, rfl, rfl, rfl, rfl⟩
  | opening =>
    cases h
    exact ⟨[], rfl, rfl, rfl, rfl, rfl⟩
  | closing =>
    cases h
    exact ⟨[], rfl, rfl, rfl, rfl, rfl⟩

theorem accounts_symbols {symbols : List Symbol} :
    ∀ {marks : List (Mark Value)} {state after : σ},
      (symbols.mapM (Symbol.resolve source)).run state = .ok (marks, after) →
        ∃ values, ((symbols.filterMap Symbol.operand?).mapM source.worth).run state =
            .ok (values, after) ∧
          Accounts values (symbols.filterMap Symbol.operation?) (symbols.filterMap Symbol.call?)
            (symbols.count .sign) (marks.flatMap Mark.nodes) := by
  induction symbols with
  | nil =>
    intro marks state after h
    cases h
    exact ⟨[], rfl, rfl, rfl, rfl, rfl⟩
  | cons symbol symbols ih =>
    intro marks state after h
    rw [Answering.run_mapM_cons_iff] at h
    obtain ⟨mark, rest, between, hm, hr, rfl⟩ := h
    obtain ⟨values, hv, ha⟩ := accounts_symbol hm
    obtain ⟨others, ho, hb⟩ := ih hr
    have hboth := ha.append hb
    simp only [List.filterMap_eq_flatMap_toList] at ho hboth ⊢
    refine ⟨values ++ others, Answering.run_mapM_append hv ho, ?_⟩
    rw [← List.count_append] at hboth
    exact hboth

/-- No token is lost, doubled or invented: the numbers of a postfix order are the numbers of the
text and the magnitudes of its variables, in their order, its operators and functions are those
of the text, and its negations are the signs of the text and the variables below zero. -/
theorem convert_inventory {state : σ} {text : String} {nodes : List Node}
    (h : ((convert text).run source state).outcome = .ok nodes) :
    ∃ values, (((tokens text).filterMap Token.operand?).mapM source.worth).run state =
        .ok (values, ((convert text).run source state).state) ∧
      numbers nodes = values.map Value.magnitude ∧
      (nodes.filterMap Node.operation?).Perm (operatorsOf none (tokens text)) ∧
      (nodes.filterMap Node.call?).Perm ((tokens text).filterMap Token.function?) ∧
      nodes.count .negation =
        countSigns none (tokens text) + values.countP Value.isNegative := by
  obtain ⟨symbols, marks, yard, hr, hm, hadd, hfinish⟩ :=
    exists_symbols_of_convert (Dialogue.play_eq_ok_iff.mpr ⟨h, rfl⟩)
  obtain ⟨hperm, hnumbers⟩ := ShuntingYard.finish_inventory hadd hfinish
  obtain ⟨values, hv, haccounts⟩ := accounts_symbols hm
  have hwritten := written_tokens hr
  rw [← hwritten.operands] at hv
  refine ⟨values, hv, hnumbers.trans haccounts.numbers, ?_, ?_, ?_⟩
  · rw [hwritten.operators, ← haccounts.operations]
    exact hperm.filterMap _
  · rw [hwritten.functions, ← haccounts.calls]
    exact hperm.filterMap _
  · rw [hwritten.signs, hperm.count_eq, haccounts.negations]

theorem convert_inventory_of_sine :
    let source : Source Unit := ⟨fun _ state => (.ok "-4", state)⟩
    ∃ nodes, ((convert "sin(-x)*2 3").run source ()).outcome = .ok nodes ∧
      numbers nodes = [4, 2, 3] ∧ (nodes.filterMap Node.operation?).Perm [.multiplication] ∧
      (nodes.filterMap Node.call?).Perm [.sine] ∧ nodes.count .negation = 2 := by
  intro source
  have h : ((convert "sin(-x)*2 3").run source ()).outcome = .ok [.number 4, .negation,
      .call .sine, .negation, .number 2, .number 3, .operation .multiplication] := by
    decide +kernel
  have hworth : (((tokens "sin(-x)*2 3").filterMap Token.operand?).mapM source.worth).run () =
      .ok ([.answered (-4), .literal 2, .literal 3], ()) := by
    decide +kernel
  obtain ⟨values, hvalues, hnumbers, hoperations, hcalls, hnegations⟩ := convert_inventory h
  rw [hworth] at hvalues
  cases hvalues
  have hoperators : operatorsOf none (tokens "sin(-x)*2 3") = [.multiplication] := by
    decide +kernel
  have hfunctions : (tokens "sin(-x)*2 3").filterMap Token.function? = [.sine] := by
    decide +kernel
  have hsigns : countSigns none (tokens "sin(-x)*2 3") = 1 := by decide +kernel
  have hmagnitudes : [Value.answered (-4), .literal 2, .literal 3].map Value.magnitude =
      [4, 2, 3] := by
    decide +kernel
  have hbelow : [Value.answered (-4), .literal 2, .literal 3].countP Value.isNegative = 1 := by
    decide +kernel
  exact ⟨_, h, hnumbers.trans hmagnitudes, hoperators ▸ hoperations, hfunctions ▸ hcalls,
    by rw [hnegations, hsigns, hbelow]⟩

end Calculator
