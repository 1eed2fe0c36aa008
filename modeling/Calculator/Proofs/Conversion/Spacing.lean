import Calculator.Proofs.Conversion.Inquiry
import Calculator.Proofs.Token.Spacing

/-!
# Blanks have no meaning

Texts with the same tokens read as the same symbols, signs among them: whether a minus
is a sign depends on the token before it and not on its place in the text. No source
can then tell their conversions or their calculations apart.
-/
namespace Calculator

open Text TokenKind

/-- Two texts are the same to every source, and come to the same end. -/
structure Indistinguishable (text other : String) : Prop where
  /-- The symbols agree, so the same minuses are signs. -/
  reading : (TokenStream.ofString text).reading = (TokenStream.ofString other).reading
  conversion : ∀ {σ : Type} (source : Source σ) (state : σ),
    SameQuestions ((convert text).run source state) ((convert other).run source state)
  calculation : ∀ {σ : Type} (source : Source σ) (state : σ),
    SameQuestions ((calculate text).run source state) ((calculate other).run source state)

/-- An operator token writes an operator, so it has a symbol. -/
def Lexeme.WritesOperator (lexeme : Lexeme) : Prop :=
  lexeme.token.kind = .operator → ∃ operator : Operator, lexeme.token.content = [operator.symbol]

theorem operatorSymbol_of_content {token : Token} {operator : Operator}
    (h : token.content = [operator.symbol]) (leading : Bool) :
    token.operatorSymbol leading =
      if leading && token.content = [Operator.subtraction.symbol] then .ok .sign
      else .ok (.operation operator) := by
  rw [Token.operatorSymbol, h, Operator.ofText?_eq_some_iff.mpr rfl]

/-- A run of letters counts as a name, and what follows it only if it is one. -/
theorem Lexeme.Alike.identifierSymbol_eq {lexeme other : Lexeme} (h : lexeme.Alike other) :
    lexeme.identifierSymbol = other.identifierSymbol := by
  rw [Lexeme.identifierSymbol, Lexeme.identifierSymbol, ← h.content]
  split
  · rfl
  · cases hf : NamedFunction.ofText? lexeme.token.content with
    | none => cases lexeme.opens <;> cases other.opens <;> rfl
    | some function => rw [h.opens function (NamedFunction.ofText?_eq_some_iff.mp hf)]

theorem Lexeme.Alike.symbol_eq {lexeme other : Lexeme} (h : lexeme.Alike other)
    (hoperator : lexeme.WritesOperator) (leading : Bool) :
    lexeme.symbol leading = other.symbol leading := by
  rw [Lexeme.symbol, Lexeme.symbol, ← h.kind]
  cases hk : lexeme.token.kind with
  | number => simp only [h.content]
  | identifier => exact h.identifierSymbol_eq
  | punctuation => simp only [h.content]
  | operator =>
    obtain ⟨operator, ho⟩ := hoperator hk
    dsimp only
    rw [operatorSymbol_of_content ho, operatorSymbol_of_content (h.content ▸ ho), h.content]

theorem TokenStream.readFrom_eq {lexemes others : List Lexeme}
    (h : List.Forall₂ Lexeme.Alike lexemes others)
    (hoperators : ∀ lexeme ∈ lexemes, lexeme.WritesOperator) (place : Place)
    (ending : Option Failure) :
    readFrom place ending lexemes = readFrom place ending others := by
  induction h generalizing place with
  | nil => rfl
  | @cons lexeme other lexemes others halike _ ih =>
    have hrest := ih fun lexeme hm => hoperators lexeme (List.mem_cons_of_mem _ hm)
    have hsymbol := halike.symbol_eq (hoperators lexeme List.mem_cons_self)
    rw [readFrom, readFrom, hsymbol]
    simp only [hrest]

theorem TokenStream.writesOperator_of_mem {text : String} {lexeme : Lexeme}
    (hm : lexeme ∈ (ofString text).lexemes) : lexeme.WritesOperator := by
  intro hk
  rw [ofString_eq_ofRuns] at hm
  obtain ⟨before, behind, -, -, hne, hall, hlength⟩ :=
    standsIn_of_mem (areRuns_runs text.toList) hm
  rw [hk] at hlength
  obtain ⟨c, hc⟩ := List.length_eq_one_iff.mp hlength
  have hoperator : TokenKind.operator.Admits c = true := by
    rw [← hk]
    exact hall c (hc ▸ List.mem_singleton_self c)
  obtain ⟨operator, rfl⟩ := exists_symbol_eq hoperator
  exact ⟨operator, hc⟩

theorem TokenStream.ending_ofString_eq_none_iff {text : String} :
    (ofString text).ending = none ↔ ∀ c ∈ text.toList, Legal c := by
  have hends := ends_ofRuns (areRuns_runs text.toList) 0
  rw [flatten_runs] at hends
  rw [ofString_eq_ofRuns]
  exact hends.eq_none_iff

theorem SameTokens.reading_eq {text other : String} (h : SameTokens text other)
    (htext : ∀ c ∈ text.toList, Legal c) (hother : ∀ c ∈ other.toList, Legal c) :
    (TokenStream.ofString text).reading = (TokenStream.ofString other).reading := by
  rw [TokenStream.reading, TokenStream.reading, TokenStream.ending_ofString_eq_none_iff.mpr htext,
    TokenStream.ending_ofString_eq_none_iff.mpr hother]
  exact TokenStream.readFrom_eq h (fun _ hm => TokenStream.writesOperator_of_mem hm) _ _

theorem unnoted_convert_of_reading_eq {text other : String}
    (h : (TokenStream.ofString text).reading = (TokenStream.ofString other).reading) :
    (convert text).unnoted = (convert other).unnoted := by
  rw [TokenStream.ofString_eq_ofRuns, TokenStream.ofString_eq_ofRuns] at h
  change readRuns .leading 0 _ = readRuns .leading 0 _ at h
  rw [unnoted_convert, unnoted_convert, h]

theorem indistinguishable_of_reading_eq {text other : String}
    (h : (TokenStream.ofString text).reading = (TokenStream.ofString other).reading) :
    Indistinguishable text other where
  reading := h
  conversion := Dialogue.sameQuestions_of_unnoted_eq (unnoted_convert_of_reading_eq h)
  calculation := by
    refine Dialogue.sameQuestions_of_unnoted_eq ?_
    rw [unnoted_calculate, unnoted_calculate, unnoted_convert_of_reading_eq h]

/-- Of a text without illegal characters nothing counts but its tokens, and blanks that come or go
between two tokens leave them as they are. -/
theorem blanks_between_tokens (text other : String) (legal : ∀ c ∈ text.toList, Legal c) :
    (SameTokens text other → (∀ c ∈ other.toList, Legal c) → Indistinguishable text other) ∧
      (Respaced text other → SameTokens text other ∧ Indistinguishable text other) := by
  have htokens (h : SameTokens text other) (hother : ∀ c ∈ other.toList, Legal c) :
      Indistinguishable text other :=
    indistinguishable_of_reading_eq (h.reading_eq legal hother)
  refine ⟨htokens, fun h => ?_⟩
  exact ⟨h.sameTokens, htokens h.sameTokens (h.legal_iff.mp legal)⟩

/-- A space before a minus and a no-break space behind a parenthesis. -/
theorem blanks_between_two_and_sine :
    (∀ c ∈ "2-sin(-x)".toList, Legal c) ∧ Respaced "2-sin(-x)" "2 -sin(\u00a0-x)" ∧
      SameTokens "2-sin(-x)" "2 -sin(\u00a0-x)" ∧
      Indistinguishable "2-sin(-x)" "2 -sin(\u00a0-x)" := by
  have hlegal : ∀ c ∈ "2-sin(-x)".toList, Legal c :=
    TokenStream.ending_ofString_eq_none_iff.mp (by decide +kernel)
  have hspace : Spaced "2-sin(-x)" "2 -sin(-x)" :=
    ⟨['2'], [' '], "-sin(-x)".toList, ⟨by simp; decide, fun h => absurd h (by decide)⟩,
      List.forall_mem_singleton.mpr (by decide), by decide, by decide⟩
  have hnoBreak : Spaced "2 -sin(-x)" "2 -sin(\u00a0-x)" :=
    ⟨"2 -sin(".toList, ['\u00a0'], "-x)".toList, ⟨by simp; decide, fun h => absurd h (by decide)⟩,
      List.forall_mem_singleton.mpr (by decide), by decide, by decide⟩
  have hrespaced : Respaced "2-sin(-x)" "2 -sin(\u00a0-x)" :=
    .trans _ _ _ (.rel _ _ hspace) (.rel _ _ hnoBreak)
  obtain ⟨htokens, -⟩ := (blanks_between_tokens _ _ hlegal).2 hrespaced
  have hother := hrespaced.legal_iff.mp hlegal
  exact ⟨hlegal, hrespaced, htokens, (blanks_between_tokens _ _ hlegal).1 htokens hother⟩

end Calculator
