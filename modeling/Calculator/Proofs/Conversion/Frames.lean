import Calculator.Proofs.Conversion.Segments
import Calculator.Proofs.Yard.Frames

/-!
# Conversions on top of a stack

Between the parentheses of a group the opening one stays where it is, as long as the tokens
close no more than they open. Behind it a conversion looks at nothing that is below, so it
does the same on top of any stack and behind any nodes. It does not matter here whether
names that are reported to open have their parenthesis, since a token that is passed over
in its place only leaves more open.
-/
namespace Calculator

/-! ## Balanced tokens -/

section Closes

variable {token : Token} {tokens : List Token} {opened : Nat}

theorem exists_of_closes_cons (h : closes opened (token :: tokens) = true) :
    ∃ rest, rest + token.closings = opened + token.openings ∧ closes rest tokens = true := by
  by_cases ho : token.isOpening = true
  · rw [closes_opening ho] at h
    obtain ⟨hopenings, hclosings⟩ := Token.counts_opening ho
    exact ⟨opened + 1, by rw [hopenings, hclosings], h⟩
  by_cases hc : token.isClosing = true
  · obtain ⟨rest, rfl, hrest⟩ := exists_of_closes_closing hc h
    obtain ⟨hopenings, hclosings⟩ := Token.counts_closing hc
    exact ⟨rest, by rw [hopenings, hclosings], hrest⟩
  · rw [closes, if_neg ho, if_neg hc] at h
    exact ⟨opened, by rw [Token.openings, Token.closings, if_neg ho, if_neg hc], h⟩

/-- Balanced tokens close as many parentheses as they open. -/
theorem countP_of_closes {tokens : List Token} : ∀ {opened : Nat}, closes opened tokens = true →
    tokens.countP Token.isClosing = opened + tokens.countP Token.isOpening := by
  induction tokens with
  | nil =>
    intro opened h
    have hzero : opened = 0 := of_decide_eq_true h
    rw [hzero]
    rfl
  | cons token tokens ih =>
    intro opened h
    obtain ⟨rest, hcount, hrest⟩ := exists_of_closes_cons h
    have htokens := ih hrest
    rw [Token.closings, Token.openings] at hcount
    rw [List.countP_cons, List.countP_cons]
    omega

end Closes

theorem Lexeme.Becomes.isClosing {lexeme : Lexeme} {symbol : Symbol}
    (h : lexeme.Becomes symbol .closing) : lexeme.token.isClosing = true := by
  cases h with
  | closing hc => exact hc

/-- The question for the answer that a symbol is marked with; only a variable has one. -/
def Symbol.askAnswer : Symbol → Dialogue Float
  | letter name => Conversion.askValue name
  | _ => pure 0

namespace Conversion

variable {conversion next last : Conversion} {lexeme closing : Lexeme} {outside : List Node}
  {base : List Waiting}

/-! ## Inside an open parenthesis -/

/-- A conversion between the parentheses of a group, with these tokens to come before the closing
one. The parenthesis of the group is right on top of the stack below, and above it there are at
least as many as the tokens have still to close. -/
inductive Inside (base : List Waiting) (tokens : List Token) (conversion : Conversion) : Prop
  | of {above : List Waiting} {opened : Nat}
      (stack : conversion.yard.stack = above ++ .parenthesis :: base)
      (balanced : closes opened tokens = true)
      (deep : opened + conversion.place.ahead ≤ above.count .parenthesis)

namespace Inside

variable {tokens : List Token}

theorem exists_above (h : Inside base tokens conversion) :
    ∃ above, conversion.yard.stack = above ++ .parenthesis :: base := by
  obtain @⟨above, opened, hstack, -, -⟩ := h
  exact ⟨above, hstack⟩

theorem parenthesis_mem (h : Inside base tokens conversion) :
    .parenthesis ∈ conversion.yard.stack := by
  obtain ⟨above, hstack⟩ := h.exists_above
  rw [hstack]
  exact List.mem_append_right above List.mem_cons_self

/-- A token that is passed over opens at most the parenthesis that its name has opened before. -/
theorem step (h : Inside base (lexeme.token :: tokens) conversion)
    (hs : Step lexeme conversion next) : Inside base tokens next := by
  obtain @⟨above, opened, hstack, hbalanced, hdeep⟩ := h
  obtain ⟨rest, hcount, hrest⟩ := exists_of_closes_cons hbalanced
  cases hs with
  | passed yard =>
    have hone : lexeme.token.openings ≤ 1 := by
      rw [Token.openings]
      split <;> decide
    refine .of hstack hrest ?_
    dsimp only [Place.ahead] at hdeep ⊢
    omega
  | @taken yard after place symbol answer elsewhere reads adds =>
    have hmark := Lexeme.becomes_of_symbol reads answer
    have hdepth := hmark.depth_add adds
    have hclosing : symbol.mark answer = .closing → .parenthesis ∈ above := by
      intro hm
      rw [hm] at hmark
      obtain ⟨hopenings, hclosings⟩ := Token.counts_closing hmark.isClosing
      exact List.count_pos_iff.mp (by omega)
    obtain ⟨entries, hentries⟩ := ShuntingYard.exists_above_of_add hstack hclosing adds
    refine .of hentries hrest ?_
    rw [ShuntingYard.depth, ShuntingYard.depth, hstack, hentries, List.count_append,
      List.count_append] at hdepth
    rw [Place.ahead_of_ne elsewhere] at hdeep
    dsimp only
    omega

theorem steps {lexemes : List Lexeme} (hs : Steps conversion lexemes last)
    (h : Inside base (lexemes.map Lexeme.token ++ tokens) conversion) :
    Inside base tokens last := by
  induction hs with
  | nil => exact h
  | cons step _ ih => exact ih (h.step step)

end Inside

/-! ## On top of any stack -/

/-- The conversion with these nodes gone before its own and this stack below its own. -/
def atop (outside : List Node) (base : List Waiting) (conversion : Conversion) : Conversion :=
  ⟨conversion.yard.atop outside base, conversion.place⟩

/-- The conversion without the nodes that have left and without its stack. -/
def bare (conversion : Conversion) : Conversion :=
  ⟨.of [] [] conversion.yard.functions, conversion.place⟩

theorem atop_bare (conversion : Conversion) :
    conversion.bare.atop conversion.yard.nodes conversion.yard.stack = conversion := by
  rw [atop, bare, ShuntingYard.atop_of, List.append_nil, List.nil_append, ← ShuntingYard.eq_of]

/-- What a conversion does with these tokens is the same on top of any stack and behind any nodes:
the same events, the same failure, and the same nodes leave. -/
def SelfContained (conversion : Conversion) (lexemes : List Lexeme) : Prop :=
  ∀ (σ : Type) (source : Source σ) (state : σ) (outside : List Node) (base : List Waiting),
    ((conversion.atop outside base).addLexemes lexemes).run source state =
      ((conversion.addLexemes lexemes).run source state).map (atop outside base)

/-- Of a symbol only the value of a variable is asked for; the rest is done by the yard. -/
theorem addSymbol_eq (yard : ShuntingYard) (symbol : Symbol) :
    addSymbol yard symbol = symbol.askAnswer >>= fun answer =>
      .done ((yard.add (symbol.mark answer)).map (Conversion.mk · symbol.place)) := by
  cases symbol <;> rfl

theorem addSymbol_atop {yard : ShuntingYard} {symbol : Symbol}
    (h : ∀ answer, (yard.atop outside base).add (symbol.mark answer) =
      (yard.add (symbol.mark answer)).map (ShuntingYard.atop outside base)) :
    addSymbol (yard.atop outside base) symbol = atop outside base <$> addSymbol yard symbol := by
  rw [addSymbol_eq, addSymbol_eq, map_bind]
  refine bind_congr fun answer => ?_
  rw [h, Dialogue.map_done]
  cases yard.add (symbol.mark answer) <;> rfl

theorem addLexeme_atop
    (h : ∀ symbol answer, conversion.place ≠ .behindName →
      lexeme.symbol (conversion.place = .leading) = .ok symbol →
      (conversion.yard.atop outside base).add (symbol.mark answer) =
        (conversion.yard.add (symbol.mark answer)).map (ShuntingYard.atop outside base)) :
    (conversion.atop outside base).addLexeme lexeme =
      atop outside base <$> conversion.addLexeme lexeme := by
  by_cases hp : conversion.place = .behindName
  · have hatop : (conversion.atop outside base).place = .behindName := hp
    rw [addLexeme_behindName hp, addLexeme_behindName hatop]
    rfl
  · have hatop : (conversion.atop outside base).place ≠ .behindName := hp
    have hsymbol : lexeme.symbol ((conversion.atop outside base).place = .leading) =
        lexeme.symbol (conversion.place = .leading) := rfl
    rw [addLexeme_of_ne hp, addLexeme_of_ne hatop, hsymbol]
    cases hs : lexeme.symbol (conversion.place = .leading) with
    | error failure => rfl
    | ok symbol =>
      exact congrArg (Dialogue.note _) (addSymbol_atop fun answer => h symbol answer hp hs)

namespace SelfContained

variable {lexemes more : List Lexeme}

theorem nil (conversion : Conversion) : conversion.SelfContained [] :=
  fun _ _ _ _ _ => rfl

theorem singleton
    (h : ∀ symbol answer outside base, conversion.place ≠ .behindName →
      lexeme.symbol (conversion.place = .leading) = .ok symbol →
      (conversion.yard.atop outside base).add (symbol.mark answer) =
        (conversion.yard.add (symbol.mark answer)).map (ShuntingYard.atop outside base)) :
    conversion.SelfContained [lexeme] := by
  intro σ source state outside base
  have hlexeme := addLexeme_atop fun symbol answer => h symbol answer outside base
  have hsingle (conversion : Conversion) :
      conversion.addLexemes [lexeme] = conversion.addLexeme lexeme := bind_pure _
  rw [hsingle, hsingle, hlexeme, Dialogue.run_map]

/-- Of the tokens behind, only those of the steps that the first can take have to be compared. -/
theorem append (h : conversion.SelfContained lexemes)
    (hmore : ∀ next, Steps conversion lexemes next → next.SelfContained more) :
    conversion.SelfContained (lexemes ++ more) := by
  intro σ source state outside base
  have happend (conversion : Conversion) : conversion.addLexemes (lexemes ++ more) =
      conversion.addLexemes lexemes >>= fun next => next.addLexemes more := List.foldlM_append
  rw [happend, happend, Dialogue.run_bind, Dialogue.run_bind, h]
  cases ho : ((conversion.addLexemes lexemes).run source state).outcome with
  | error failure =>
    rw [Run.andThen_of_error ho, Run.andThen_of_error (congrArg (Except.map _) ho)]
    rfl
  | ok next =>
    rw [Run.andThen_of_ok ho, Run.andThen_of_ok (congrArg (Except.map _) ho)]
    dsimp only [Run.map]
    rw [hmore next (steps_of_addLexemes ho)]
    rfl

end SelfContained

namespace Inside

theorem selfContained_singleton {tokens : List Token} (h : Inside base tokens conversion)
    (lexeme : Lexeme) : conversion.SelfContained [lexeme] :=
  .singleton fun symbol answer _ _ _ _ =>
    ShuntingYard.add_atop h.parenthesis_mem (symbol.mark answer)

/-- Inside a group a conversion looks at nothing below its parenthesis, not even with the closing
one. The induction is on the tokens before that one. -/
theorem selfContained {inside : List Lexeme} : ∀ {conversion : Conversion},
    Inside base (inside.map Lexeme.token) conversion →
    ∀ {part}, part <+: inside ++ [closing] → conversion.SelfContained part := by
  induction inside with
  | nil =>
    intro conversion h part hpart
    rcases part with _ | ⟨first, part⟩
    · exact .nil conversion
    · obtain ⟨rfl, hnil⟩ := List.cons_prefix_cons.mp hpart
      obtain rfl := List.prefix_nil.mp hnil
      exact h.selfContained_singleton first
  | cons lexeme inside ih =>
    intro conversion h part hpart
    rcases part with _ | ⟨first, part⟩
    · exact .nil conversion
    · obtain ⟨rfl, hrest⟩ := List.cons_prefix_cons.mp hpart
      exact (h.selfContained_singleton first).append fun next hs => ih (h.steps hs) hrest

end Inside

end Conversion

end Calculator
