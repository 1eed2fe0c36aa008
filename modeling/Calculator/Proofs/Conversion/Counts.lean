import Calculator.Proofs.Conversion.Inventory
import Calculator.Proofs.Conversion.Replacement
import Calculator.Proofs.Conversion.Spacing
import Calculator.Proofs.Conversion.Transcript
import Calculator.Proofs.Dialogue.Failures
import Calculator.Proofs.Postfix.Heights

/-!
# Operands and operators of a calculation

The height of a postfix order is a matter of two counts over the tokens: the operands, less
the operators between two operands. Signs, calls, parentheses and the values of variables
are not in it. A calculation has a value only if the difference is one, and a failure that
tells another number of values tells this difference.
-/
namespace Calculator

open TokenKind

/-! ## Failures of a conversion -/

/-- The failures that tell something about a postfix order. -/
def Failure.OfEvaluation : Failure → Prop
  | missingOperand _ | resultCount _ => True
  | _ => False

theorem Token.not_ofEvaluation_of_operatorSymbol {token : Token} {leading : Bool}
    {failure : Failure} (h : token.operatorSymbol leading = .error failure) :
    ¬ failure.OfEvaluation := by
  rw [operatorSymbol] at h
  split at h
  · cases h
  · split at h
    · cases h
    · cases h
      exact id

theorem Lexeme.not_ofEvaluation_of_symbol {lexeme : Lexeme} {leading : Bool} {failure : Failure}
    (h : lexeme.symbol leading = .error failure) : ¬ failure.OfEvaluation := by
  rw [symbol] at h
  split at h
  · split at h
    · cases h
    · cases h
      exact id
  · rw [identifierSymbol] at h
    split at h
    · cases h
    · split at h
      · cases h
      · cases h
        exact id
  · exact Token.not_ofEvaluation_of_operatorSymbol h
  · cases h

theorem ShuntingYard.closeGroup_eq_error {yard : ShuntingYard} {failure : Failure}
    (h : yard.closeGroup = .error failure) : failure = .unopenedParenthesis := by
  by_cases hp : .parenthesis ∈ yard.stack
  · obtain ⟨after, ha, -⟩ := exists_add_closing (List.count_pos_iff.mpr hp)
    rw [show yard.closeGroup = _ from ha] at h
    cases h
  · rw [show yard.closeGroup = _ from add_closing_of_depth_eq_zero (List.count_eq_zero.mpr hp)] at h
    cases h
    rfl

namespace Conversion

theorem failsOnly_askValue (name : Char) :
    (askValue name).FailsOnly fun failure => ¬ failure.OfEvaluation := by
  refine .ask name fun answer => ?_
  rw [readAnswer]
  cases Number.read? (Text.trim answer.toList) with
  | some value => exact .note _ (.ok value)
  | none => exact .error id

theorem failsOnly_addSymbol (yard : ShuntingYard) (symbol : Symbol) :
    (addSymbol yard symbol).FailsOnly fun failure => ¬ failure.OfEvaluation := by
  cases symbol with
  | letter name => exact (failsOnly_askValue name).bind fun _ => .ok _
  | closing =>
    rw [addSymbol]
    cases hc : yard.closeGroup with
    | ok after => exact .ok _
    | error failure =>
      cases ShuntingYard.closeGroup_eq_error hc
      exact .error id
  | _ => exact .ok _

theorem failsOnly_addLexeme (conversion : Conversion) (lexeme : Lexeme) :
    (conversion.addLexeme lexeme).FailsOnly fun failure => ¬ failure.OfEvaluation := by
  by_cases hp : conversion.place = .behindName
  · rw [addLexeme_behindName hp]
    exact .note _ (.ok _)
  · rw [addLexeme_of_ne hp]
    refine .note _ ?_
    cases hs : lexeme.symbol (conversion.place = .leading) with
    | ok symbol => exact failsOnly_addSymbol _ symbol
    | error failure => exact .error (Lexeme.not_ofEvaluation_of_symbol hs)

theorem failsOnly_addLexemes (lexemes : List Lexeme) (conversion : Conversion) :
    (conversion.addLexemes lexemes).FailsOnly fun failure => ¬ failure.OfEvaluation := by
  induction lexemes generalizing conversion with
  | nil => exact .ok conversion
  | cons lexeme lexemes ih =>
    rw [addLexemes_cons]
    exact (failsOnly_addLexeme conversion lexeme).bind ih

theorem failsOnly_finish (conversion : Conversion) {ending : Option Failure}
    (h : ∀ failure, ending = some failure → ¬ failure.OfEvaluation) :
    (conversion.finish ending).FailsOnly fun failure => ¬ failure.OfEvaluation := by
  cases ending with
  | some failure => exact .error (h failure rfl)
  | none =>
    rw [finish, ShuntingYard.finish]
    cases conversion.yard.stack.mapM Waiting.node? with
    | some waiting => exact .note _ (.ok _)
    | none => exact .error id

end Conversion

/-- Whatever a conversion fails for, it is nothing that an evaluation fails for. -/
theorem failsOnly_convert (text : String) :
    (convert text).FailsOnly fun failure => ¬ failure.OfEvaluation := by
  rw [convert, TokenStream.convert]
  refine (Conversion.failsOnly_addLexemes _ _).bind fun conversion => conversion.failsOnly_finish ?_
  intro failure hending
  have hends := TokenStream.ends_ofRuns (areRuns_runs text.toList) 0
  rw [TokenStream.ofString_eq_ofRuns] at hending
  rw [hending] at hends
  cases hends
  exact id

/-! ## The counts of a text -/

/-- Whether a token is an operand: a number, or a letter that stands alone. -/
def Token.isOperand (token : Token) : Bool :=
  token.kind = .number || token.letter?.isSome

/-- Whether a token behind another is an operator between two operands: any operator that is no
sign. -/
def Token.isOperation (previous : Option Token) (token : Token) : Bool :=
  token.kind = .operator && !token.isSign previous

def countOperands (tokens : List Token) : Nat :=
  tokens.countP Token.isOperand

def countOperations (previous : Option Token) (tokens : List Token) : Nat :=
  (behindEach previous tokens).countP fun place => place.2.isOperation place.1

/-- Every number token is a numeral. -/
def Numerals (tokens : List Token) : Prop :=
  ∀ token ∈ tokens, token.kind = .number → (Number.read? token.content).isSome = true

theorem Token.isOperand_eq {token : Token}
    (h : token.kind = .number → (Number.read? token.content).isSome = true) :
    token.isOperand = token.operand?.isSome := by
  obtain ⟨kind, content, position⟩ := token
  cases kind with
  | number =>
    rw [operand?, Option.isSome_map, h rfl]
    rfl
  | identifier => rcases content with _ | ⟨name, _ | ⟨next, rest⟩⟩ <;> rfl
  | operator => rfl
  | punctuation => rfl

theorem countOperands_eq {tokens : List Token} (h : Numerals tokens) :
    countOperands tokens = (tokens.filterMap Token.operand?).length := by
  rw [countOperands, List.length_filterMap_eq_countP]
  refine List.countP_congr fun token hm => ?_
  rw [Token.isOperand_eq (h token hm)]

theorem countOperations_eq {tokens : List Token} {previous : Option Token}
    (h : ∀ token ∈ tokens, token.kind = .operator →
      ∃ operator : Operator, token.content = [operator.symbol]) :
    countOperations previous tokens = (operatorsOf previous tokens).length := by
  rw [countOperations, operatorsOf, List.length_filterMap_eq_countP]
  refine List.countP_congr ?_
  rintro ⟨before, token⟩ hm
  have hoperator := h token (List.of_mem_zip hm).2
  rw [Token.isOperation, Token.operator?]
  cases hk : token.kind with
  | operator =>
    obtain ⟨operator, ho⟩ := hoperator hk
    have hof : Operator.ofText? token.content = some operator :=
      Operator.ofText?_eq_some_iff.mpr ho
    dsimp only
    split
    · rename_i hs
      simp [hs]
    · rename_i hs
      simp [hs, hof]
  | _ => rfl

/-- Only the name of a function is read together with the token behind it. -/
theorem Lexeme.opens_of_place {lexeme : Lexeme} {leading : Bool} {symbol : Symbol}
    (h : lexeme.symbol leading = .ok symbol) (hp : symbol.place = .behindName) :
    lexeme.opens = true := by
  cases symbol with
  | call function => exact (opens_of_symbol_eq_call h).1
  | _ => cases hp

/-- The induction is on the tokens; the one that is passed over behind a name is a parenthesis. -/
theorem numerals_of_readFrom {ending : Option Failure} {lexemes : List Lexeme} :
    ∀ {place : Place} {symbols : List Symbol},
      TokenStream.readFrom place ending lexemes = ⟨symbols, none⟩ →
      (place = .behindName → ∀ next ∈ lexemes.head?, next.token.kind = .punctuation) →
      lexemes.IsChain Lexeme.Precedes → Numerals (lexemes.map Lexeme.token) := by
  induction lexemes with
  | nil => exact fun _ _ _ token hm => nomatch hm
  | cons lexeme lexemes ih =>
    intro place symbols h hplace hchain
    rw [Numerals, List.map_cons, List.forall_mem_cons]
    rw [TokenStream.readFrom] at h
    by_cases hp : place = .behindName
    · rw [if_pos hp] at h
      refine ⟨fun hk => ?_, ih h (fun hp => by cases hp) hchain.tail⟩
      rw [hplace hp lexeme rfl] at hk
      cases hk
    · rw [if_neg hp] at h
      cases hs : lexeme.symbol (place = .leading) with
      | error failure =>
        rw [hs] at h
        cases h
      | ok symbol =>
        rw [hs] at h
        dsimp only at h
        rcases hr : TokenStream.readFrom symbol.place ending lexemes with ⟨rest, reason⟩
        rw [hr] at h
        cases h
        refine ⟨fun hk => ?_, ih hr ?_ hchain.tail⟩
        · rw [Lexeme.symbol, hk] at hs
          cases hv : Number.read? lexeme.token.content with
          | some value => rfl
          | none =>
            simp only [hv] at hs
            cases hs
        · intro hc next hn
          rcases lexemes with _ | ⟨second, lexemes⟩
          · cases hn
          · cases hn
            exact ((List.isChain_cons_cons.mp hchain).1 (Lexeme.opens_of_place hs hc)).1

/-! ## The counts of a calculation -/

variable {σ : Type} {source : Source σ} {state : σ} {text : String}

/-- The yard neither loses nor invents nodes, so the height is that of the tokens. -/
theorem height_of_convert {nodes : List Node}
    (h : ((convert text).run source state).outcome = .ok nodes) :
    height nodes = countOperands (tokens text) - countOperations none (tokens text) := by
  obtain ⟨symbols, marks, yard, hr, hm, hadd, hfinish⟩ :=
    exists_symbols_of_convert (Dialogue.play_eq_ok_iff.mpr ⟨h, rfl⟩)
  obtain ⟨hperm, hnumbers⟩ := ShuntingYard.finish_inventory hadd hfinish
  obtain ⟨values, hv, haccounts⟩ := accounts_symbols hm
  have hwritten := written_tokens hr
  have hnumerals : Numerals (tokens text) := by
    rw [tokens, TokenStream.ofString_eq_ofRuns]
    exact numerals_of_readFrom hr (fun hp => by cases hp) (TokenStream.isChain_ofRuns _ 0)
  have hoperators : ∀ token ∈ tokens text, token.kind = .operator →
      ∃ operator : Operator, token.content = [operator.symbol] := by
    intro token hm
    obtain ⟨lexeme, hl, rfl⟩ := List.mem_map.mp hm
    exact TokenStream.writesOperator_of_mem hl
  rw [countOperands_eq hnumerals, countOperations_eq hoperators, hwritten.operands,
    hwritten.operators, height, hnumbers, haccounts.numbers, List.length_map,
    Answering.length_of_run_mapM hv, (hperm.filterMap _).length_eq, haccounts.operations]

/-- The operands of a text, less its operators between operands, are what a calculation counts: its
postfix order is as high, it has a value only if that is one, and if it fails for another number
of values then for this number, unless it passes on a failure with which the source has answered.
Signs, calls, parentheses and values have no part in the counts. -/
theorem calculate_counts (source : Source σ) (state : σ) (text : String) :
    let run := (calculate text).run source state
    let operands := countOperands (tokens text)
    let operations := countOperations none (tokens text)
    (∀ nodes, ((convert text).run source state).outcome = .ok nodes →
      height nodes = (operands : Int) - operations) ∧
    (∀ value, run.outcome = .ok value → operands = operations + 1) ∧
    ∀ count : Nat, run.outcome = .error (.resultCount count) →
      ((count : Int) = operands - operations ∧ count ≠ 1) ∨
        run.Refused source state (.resultCount count) := by
  intro run operands operations
  have hheight : ∀ nodes, ((convert text).run source state).outcome = .ok nodes →
      height nodes = (operands : Int) - operations := fun nodes => height_of_convert
  refine ⟨hheight, fun value h => ?_, fun count h => ?_⟩
  · rw [run_calculate_outcome] at h
    cases hn : ((convert text).run source state).outcome with
    | error failure =>
      rw [hn] at h
      cases h
    | ok nodes =>
      rw [hn] at h
      have hends := concludes_evaluate nodes
      rw [show evaluate nodes = .ok value from h] at hends
      cases hends with
      | single supplied last =>
        have hnodes := hheight nodes hn
        omega
  · rw [run_calculate_outcome] at h
    cases hn : ((convert text).run source state).outcome with
    | error failure =>
      rw [hn] at h
      cases h
      obtain hown | hrefused := (failsOnly_convert text).run_error hn
      · exact absurd trivial hown
      · rw [Run.Refused, ← requests_calculate] at hrefused
        exact .inr hrefused
    | ok nodes =>
      rw [hn] at h
      have hends := concludes_evaluate nodes
      rw [show evaluate nodes = .error (.resultCount count) from h] at hends
      cases hends with
      | count supplied last several => exact .inl ⟨last ▸ hheight nodes hn, several⟩

/-- A source may answer with a failure that tells a number of values. It is passed on, whatever the
counts of the text are. -/
theorem calculate_refused_with_count :
    let source : Source Unit := ⟨fun _ state => (.error (.resultCount 7), state)⟩
    ((calculate "x 2").run source ()).outcome = .error (.resultCount 7) ∧
      countOperands (tokens "x 2") = 2 ∧ countOperations none (tokens "x 2") = 0 ∧
      ¬ ((7 : Int) = countOperands (tokens "x 2") - countOperations none (tokens "x 2")) := by
  decide +kernel

end Calculator
