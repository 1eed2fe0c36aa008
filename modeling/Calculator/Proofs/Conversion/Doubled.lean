import Calculator.Bindings
import Calculator.Proofs.Conversion.Inventory
import Calculator.Proofs.Conversion.Spacing
import Calculator.Proofs.Conversion.Transcript
import Calculator.Proofs.Dialogue.Places
import Calculator.Proofs.Yard.Enclosed

/-!
# Doubled parentheses

A second pair of parentheses right inside the first changes nothing: the yard does between
them what it does between the first alone, and the second closing parenthesis lets
nothing leave. The tokens before and behind may have any form, and functions may wait on
the outside and on the inside. What counts is that the pair is a pair, so the tokens
between are balanced, and that behind each name among them a parenthesis is passed over
and nothing else.
-/
namespace Calculator

open TokenKind

/-! ## Tokens at other places -/

/-- A token has the same symbol elsewhere, or none for the same reason. -/
theorem Lexeme.Alike.symbol_unplaced {lexeme other : Lexeme} (h : lexeme.Alike other)
    (leading : Bool) : (lexeme.symbol leading).mapError Failure.unplaced =
      (other.symbol leading).mapError Failure.unplaced := by
  rw [Lexeme.symbol, Lexeme.symbol, ← h.kind]
  cases lexeme.token.kind with
  | number => simp only [h.content]
  | identifier => rw [h.identifierSymbol_eq]
  | punctuation => simp only [h.content]
  | operator =>
    dsimp only
    rw [Token.operatorSymbol, Token.operatorSymbol, h.content]
    split
    · rfl
    · cases Operator.ofText? other.token.content <;> rfl

/-- The reading without the place of a character. -/
def Reading.unplaced (reading : Reading) : Reading :=
  { reading with ending := reading.ending.map Failure.unplaced }

theorem Reading.unplaced_cons (symbol : Symbol) (reading : Reading) :
    (reading.cons symbol).unplaced = reading.unplaced.cons symbol := rfl

theorem TokenStream.readFrom_unplaced {ending last : Option Failure}
    (hending : ending.map Failure.unplaced = last.map Failure.unplaced)
    {lexemes others : List Lexeme} (h : List.Forall₂ Lexeme.Alike lexemes others)
    (place : Place) :
    (readFrom place ending lexemes).unplaced = (readFrom place last others).unplaced := by
  induction h generalizing place with
  | nil => exact congrArg (Reading.mk []) hending
  | @cons lexeme other lexemes others halike _ ih =>
    rw [readFrom, readFrom]
    by_cases hp : place = .behindName
    · rw [if_pos hp, if_pos hp]
      exact ih _
    · rw [if_neg hp, if_neg hp]
      have hsymbol := halike.symbol_unplaced (place = .leading)
      cases hs : lexeme.symbol (place = .leading) with
      | ok symbol =>
        cases ho : other.symbol (place = .leading) with
        | ok found =>
          rw [hs, ho] at hsymbol
          cases hsymbol
          dsimp only
          rw [Reading.unplaced_cons, Reading.unplaced_cons, ih]
        | error reason =>
          rw [hs, ho] at hsymbol
          cases hsymbol
      | error failure =>
        cases ho : other.symbol (place = .leading) with
        | ok found =>
          rw [hs, ho] at hsymbol
          cases hsymbol
        | error reason =>
          rw [hs, ho] at hsymbol
          exact congrArg (fun failure => Reading.mk [] (some failure)) (Except.error.inj hsymbol)

theorem ShuntingYard.conclude_unplaced (yard : ShuntingYard) {ending last : Option Failure}
    (h : ending.map Failure.unplaced = last.map Failure.unplaced) :
    (yard.conclude ending).mapError Failure.unplaced =
      (yard.conclude last).mapError Failure.unplaced := by
  cases ending with
  | none =>
    cases last with
    | none => rfl
    | some failure => cases h
  | some failure =>
    cases last with
    | none => cases h
    | some reason => exact congrArg Except.error (Option.some.inj h)

theorem Reading.inquireFrom_unplaced {reading other : Reading}
    (h : reading.unplaced = other.unplaced) (yard : ShuntingYard) :
    (reading.inquireFrom yard).unplaced = (other.inquireFrom yard).unplaced := by
  obtain ⟨hsymbols, hending⟩ := Reading.mk.inj h
  rw [inquireFrom, inquireFrom, Dialogue.unplaced_bind, Dialogue.unplaced_bind, hsymbols]
  congr 1
  funext after
  exact congrArg Dialogue.done (after.conclude_unplaced hending)

/-! ## Balanced tokens -/

namespace Token

/-- Every parenthesis that is no opening one counts as a closing one. -/
def isClosing (token : Token) : Bool :=
  token.kind = .punctuation && token.content ≠ ['(']

variable {token : Token}

theorem isOpening_of_isClosing (h : token.isClosing = true) : token.isOpening = false := by
  simp only [isClosing, Bool.and_eq_true, decide_eq_true_eq] at h
  rw [isOpening, decide_eq_false h.2, Bool.and_false]

theorem isOpening_of_kind (h : token.kind ≠ .punctuation) : token.isOpening = false := by
  rw [isOpening, decide_eq_false h, Bool.false_and]

theorem isClosing_of_kind (h : token.kind ≠ .punctuation) : token.isClosing = false := by
  rw [isClosing, decide_eq_false h, Bool.false_and]

end Token

/-- Whether the tokens close all parentheses that they open and that are open before them, and
never one more. -/
def closes : Nat → List Token → Bool
  | opened, [] => opened = 0
  | opened, token :: tokens =>
    if token.isOpening then closes (opened + 1) tokens
    else if token.isClosing then 0 < opened && closes (opened - 1) tokens
    else closes opened tokens

section Closes

variable {token : Token} {tokens : List Token} {opened : Nat}

theorem closes_opening (h : token.isOpening = true) :
    closes opened (token :: tokens) = closes (opened + 1) tokens := by
  rw [closes, if_pos h]

theorem exists_of_closes_closing (ht : token.isClosing = true)
    (h : closes opened (token :: tokens) = true) :
    ∃ rest, opened = rest + 1 ∧ closes rest tokens = true := by
  rw [closes, Token.isOpening_of_isClosing ht, if_neg Bool.false_ne_true, if_pos ht,
    Bool.and_eq_true, decide_eq_true_eq] at h
  obtain ⟨hpos, hrest⟩ := h
  exact ⟨opened - 1, by omega, hrest⟩

theorem closes_plain (h : token.kind ≠ .punctuation) :
    closes opened (token :: tokens) = closes opened tokens := by
  rw [closes, Token.isOpening_of_kind h, Token.isClosing_of_kind h, if_neg Bool.false_ne_true,
    if_neg Bool.false_ne_true]

end Closes

namespace Lexeme

variable {lexeme : Lexeme}

/-- What a token has to be for a symbol, and for the mark that comes of it. -/
inductive Becomes (lexeme : Lexeme) : Symbol → Mark Value → Prop
  | number (kind : lexeme.token.kind = .number) (value : Float) :
      Becomes lexeme (.number value) (.operand (.literal value))
  | letter (kind : lexeme.token.kind = .identifier) (name : Char) (value : Float) :
      Becomes lexeme (.letter name) (.operand (.answered value))
  | call (kind : lexeme.token.kind = .identifier) {function : NamedFunction}
      (name : lexeme.token.function? = some function) (opens : lexeme.opens = true) :
      Becomes lexeme (.call function) (.call function)
  | sign (kind : lexeme.token.kind = .operator) : Becomes lexeme .sign .sign
  | operation (kind : lexeme.token.kind = .operator) (operator : Operator) :
      Becomes lexeme (.operation operator) (.operation operator)
  | opening (isOpening : lexeme.token.isOpening = true) : Becomes lexeme .opening .opening
  | closing (isClosing : lexeme.token.isClosing = true) : Becomes lexeme .closing .closing

theorem becomes_of_symbol {leading : Bool} {symbol : Symbol}
    (h : lexeme.symbol leading = .ok symbol) (answer : Float) :
    lexeme.Becomes symbol (symbol.mark answer) := by
  rw [Lexeme.symbol] at h
  split at h
  · rename_i hk
    split at h
    · cases h
      exact .number hk _
    · cases h
  · rename_i hk
    rw [identifierSymbol] at h
    split at h
    · cases h
      exact .letter hk _ answer
    · split at h
      · rename_i ho hf
        cases h
        refine .call hk ?_ ho
        rw [Token.function?, hk]
        exact hf
      · cases h
  · rename_i hk
    rw [Token.operatorSymbol] at h
    split at h
    · cases h
      exact .sign hk
    · split at h
      · cases h
        exact .operation hk _
      · cases h
  · rename_i hk
    split at h
    · rename_i hc
      cases h
      refine .opening ?_
      rw [Token.isOpening, hk, hc]
      rfl
    · rename_i hc
      cases h
      refine .closing ?_
      rw [Token.isClosing, hk, decide_eq_true hc]
      rfl

/-- What follows a symbol is decided by the marks that can come of it. -/
theorem inquire_congr {β : Type} {leading : Bool} {symbol : Symbol}
    (h : lexeme.symbol leading = .ok symbol) {next other : Mark Value → Dialogue β}
    (hnext : ∀ mark, lexeme.Becomes symbol mark → next mark = other mark) :
    symbol.inquire >>= next = symbol.inquire >>= other := by
  have hmark (answer : Float) : next (symbol.mark answer) = other (symbol.mark answer) :=
    hnext _ (becomes_of_symbol h answer)
  cases symbol with
  | letter name =>
    rw [Symbol.inquire, bind_map_left, bind_map_left]
    exact bind_congr hmark
  | _ => exact hmark 0

theorem symbol_of_isOpening (h : lexeme.token.isOpening = true) (leading : Bool) :
    lexeme.symbol leading = .ok .opening := by
  simp only [Token.isOpening, Bool.and_eq_true, decide_eq_true_eq] at h
  rw [symbol, h.1]
  dsimp only
  rw [if_pos h.2]

theorem symbol_of_isClosing (h : lexeme.token.isClosing = true) (leading : Bool) :
    lexeme.symbol leading = .ok .closing := by
  simp only [Token.isClosing, Bool.and_eq_true, decide_eq_true_eq] at h
  rw [symbol, h.1]
  dsimp only
  rw [if_neg h.2]

end Lexeme

/-! ## The rest of a conversion -/

namespace Conversion

variable {yard : ShuntingYard} {place : Place} {ending : Option Failure} {lexeme : Lexeme}
  {lexemes : List Lexeme}

/-- What a conversion does with the tokens that follow, without its notes. -/
def rest (conversion : Conversion) (ending : Option Failure) (lexemes : List Lexeme) :
    Dialogue (List Node) :=
  (TokenStream.readFrom conversion.place ending lexemes).inquireFrom conversion.yard

theorem rest_behindName (hp : place = .behindName) :
    rest ⟨yard, place⟩ ending (lexeme :: lexemes) = rest ⟨yard, .leading⟩ ending lexemes := by
  rw [rest, TokenStream.readFrom, if_pos hp]
  rfl

theorem rest_failure (hp : place ≠ .behindName) {failure : Failure}
    (hs : lexeme.symbol (place = .leading) = .error failure) :
    rest ⟨yard, place⟩ ending (lexeme :: lexemes) = .done (.error failure) := by
  rw [rest, TokenStream.readFrom, if_neg hp, hs]
  rfl

theorem rest_symbol (hp : place ≠ .behindName) {symbol : Symbol}
    (hs : lexeme.symbol (place = .leading) = .ok symbol) :
    rest ⟨yard, place⟩ ending (lexeme :: lexemes) = (do
      let mark ← symbol.inquire
      let next ← .done (yard.add mark)
      rest ⟨next, symbol.place⟩ ending lexemes) := by
  rw [rest, TokenStream.readFrom, if_neg hp, hs]
  dsimp only [Reading.cons]
  rw [Reading.inquireFrom, ShuntingYard.inquire]
  simp only [bind_assoc]
  rfl

theorem rest_opening (hp : place ≠ .behindName) (h : lexeme.token.isOpening = true) :
    rest ⟨yard, place⟩ ending (lexeme :: lexemes) =
      rest ⟨yard.openGroup, .leading⟩ ending lexemes :=
  rest_symbol hp (Lexeme.symbol_of_isOpening h _)

theorem rest_closing (hp : place ≠ .behindName) (h : lexeme.token.isClosing = true)
    {after : ShuntingYard} (hadd : yard.add .closing = .ok after) :
    rest ⟨yard, place⟩ ending (lexeme :: lexemes) = rest ⟨after, .inner⟩ ending lexemes := by
  refine (rest_symbol hp (Lexeme.symbol_of_isClosing h _)).trans ?_
  rw [Symbol.inquire, pure_bind, hadd]
  rfl

/-- Behind a name its parenthesis is on top of the stack already. -/
def Opened (conversion : Conversion) : Prop :=
  conversion.place = .behindName → conversion.yard.stack.head? = some .parenthesis

/-- The same tokens come before, so it suffices to compare what follows. -/
theorem rest_append_congr {tail others : List Lexeme}
    (h : ∀ conversion : Conversion, conversion.Opened →
      conversion.rest ending tail = conversion.rest ending others) (before : List Lexeme) :
    ∀ conversion : Conversion, conversion.Opened →
      conversion.rest ending (before ++ tail) = conversion.rest ending (before ++ others) := by
  induction before with
  | nil => exact h
  | cons lexeme before ih =>
    rintro ⟨yard, place⟩ -
    rw [List.cons_append, List.cons_append]
    by_cases hp : place = .behindName
    · rw [rest_behindName hp, rest_behindName hp]
      exact ih _ nofun
    · cases hs : lexeme.symbol (place = .leading) with
      | error failure => rw [rest_failure hp hs, rest_failure hp hs]
      | ok symbol =>
        rw [rest_symbol hp hs, rest_symbol hp hs]
        cases symbol with
        | call function => exact ih ⟨yard.openCall function, .behindName⟩ fun _ => rfl
        | _ => exact bind_congr fun mark => bind_congr fun next => ih ⟨next, _⟩ nofun

end Conversion

/-! ## Between the parentheses -/

/-- The parentheses that are open at a place before their token is passed over. -/
def Place.ahead : Place → Nat
  | .behindName => 1
  | _ => 0

theorem Place.ahead_of_ne {place : Place} (h : place ≠ .behindName) : place.ahead = 0 := by
  cases place with
  | behindName => exact absurd rfl h
  | leading => rfl
  | inner => rfl

/-- Where the name of a function is reported to open, an opening parenthesis is next. -/
def Lexeme.Announces (lexeme next : Lexeme) : Prop :=
  lexeme.opens = true → lexeme.token.function?.isSome = true → next.token.isOpening = true

theorem Lexeme.Precedes.announces {lexeme next : Lexeme} (h : lexeme.Precedes next) :
    lexeme.Announces next := by
  intro hopens _
  obtain ⟨hkind, hcontent⟩ := h hopens
  rw [Token.isOpening, hkind, hcontent]
  rfl

/-- What scans a text reports no name to open that has no parenthesis behind it. -/
theorem TokenStream.isChain_announces (text : String) :
    (TokenStream.ofString text).lexemes.IsChain Lexeme.Announces := by
  rw [TokenStream.ofString_eq_ofRuns]
  exact (TokenStream.isChain_ofRuns _ 0).imp fun _ _ hprecedes => hprecedes.announces

namespace Lexeme.Becomes

variable {lexeme : Lexeme} {symbol : Symbol} {mark : Mark Value}

theorem announces (h : lexeme.Becomes symbol mark) (hp : symbol.place = .behindName) :
    lexeme.opens = true ∧ lexeme.token.function?.isSome = true := by
  cases h with
  | call hk hname hopens => exact ⟨hopens, Option.isSome_of_eq_some hname⟩
  | number => cases hp
  | letter => cases hp
  | sign => cases hp
  | operation => cases hp
  | opening => cases hp
  | closing => cases hp

/-- A yard with balanced tokens before it takes the mark of the first, and its depth keeps count. -/
theorem exists_add (h : lexeme.Becomes symbol mark) {yard : ShuntingYard} {tokens : List Token}
    (hbalanced : closes yard.depth (lexeme.token :: tokens) = true) :
    ∃ after opened, yard.add mark = .ok after ∧ closes opened tokens = true ∧
      after.depth = opened + symbol.place.ahead := by
  have plain (hk : lexeme.token.kind ≠ .punctuation) (ho : mark.opens = false)
      (hc : mark ≠ .closing) (hp : symbol.place = .inner) :
      ∃ after opened, yard.add mark = .ok after ∧ closes opened tokens = true ∧
        after.depth = opened + symbol.place.ahead := by
    obtain ⟨after, hadd, hdepth⟩ := yard.exists_add_plain mark ho hc
    rw [closes_plain hk] at hbalanced
    refine ⟨after, yard.depth, hadd, hbalanced, ?_⟩
    rw [hdepth, hp]
    rfl
  cases h with
  | number hk value => exact plain (by simp [hk]) rfl nofun rfl
  | letter hk name value => exact plain (by simp [hk]) rfl nofun rfl
  | sign hk => exact plain (by simp [hk]) rfl nofun rfl
  | operation hk operator => exact plain (by simp [hk]) rfl nofun rfl
  | call hk hname hopens =>
    obtain ⟨after, hadd, hdepth⟩ := yard.exists_add_opens (.call _) rfl
    rw [closes_plain (by simp [hk])] at hbalanced
    exact ⟨after, yard.depth, hadd, hbalanced, hdepth⟩
  | opening ho =>
    obtain ⟨after, hadd, hdepth⟩ := yard.exists_add_opens .opening rfl
    rw [closes_opening ho] at hbalanced
    exact ⟨after, yard.depth + 1, hadd, hbalanced, hdepth⟩
  | closing hc =>
    obtain ⟨rest, hrest, hcloses⟩ := exists_of_closes_closing hc hbalanced
    have hpos : 0 < yard.depth := hrest ▸ Nat.succ_pos rest
    obtain ⟨after, hadd, hdepth⟩ := ShuntingYard.exists_add_closing hpos
    exact ⟨after, rest, hadd, hcloses, Nat.succ.inj (hdepth.trans hrest)⟩

end Lexeme.Becomes

namespace Conversion

variable {ending : Option Failure} {opening closing : Lexeme} {outside : List Node}
  {base : List Waiting}

/-- The first closing parenthesis lets leave what is inside, and the second lets nothing leave. -/
theorem rest_closings (hclosing : closing.token.isClosing = true) (behind : List Lexeme)
    {yard : ShuntingYard} {place : Place} (hplace : place ≠ .behindName) (hdepth : yard.depth = 0) :
    rest ⟨yard.within outside base, place⟩ ending (closing :: behind) =
      rest ⟨yard.within outside (.parenthesis :: base), place⟩ ending
        (closing :: closing :: behind) := by
  have hstack : .parenthesis ∉ yard.stack := List.count_eq_zero.mp hdepth
  rw [ShuntingYard.within, ShuntingYard.within,
    rest_closing hplace hclosing (ShuntingYard.add_closing hstack),
    rest_closing hplace hclosing (ShuntingYard.add_closing hstack)]
  exact (rest_closing (by decide) hclosing (by rfl)).symm

/-- The yard takes the balanced tokens above its own parentheses, whatever the stack is below. The
induction is on these tokens: all parentheses that they have opened are in the inner yard. -/
theorem rest_inside (hclosing : closing.token.isClosing = true) (behind : List Lexeme)
    {inside : List Lexeme} : ∀ {opened : Nat} {place : Place} {yard : ShuntingYard},
      closes opened (inside.map Lexeme.token) = true →
      (inside ++ [closing]).IsChain Lexeme.Announces →
      (place = .behindName →
        ∀ next ∈ (inside ++ [closing]).head?, next.token.isOpening = true) →
      yard.depth = opened + place.ahead →
      rest ⟨yard.within outside base, place⟩ ending (inside ++ closing :: behind) =
        rest ⟨yard.within outside (.parenthesis :: base), place⟩ ending
          (inside ++ closing :: closing :: behind) := by
  induction inside with
  | nil =>
    intro opened place yard hbalanced _ hname hdepth
    have hp : place ≠ .behindName := by
      intro hp
      have hopening := hname hp closing rfl
      rw [Token.isOpening_of_isClosing hclosing] at hopening
      cases hopening
    refine rest_closings hclosing behind hp ?_
    rw [hdepth, Place.ahead_of_ne hp]
    exact of_decide_eq_true hbalanced
  | cons lexeme inside ih =>
    intro opened place yard hbalanced hchain hname hdepth
    rw [List.map_cons] at hbalanced
    rw [List.cons_append, List.cons_append]
    by_cases hp : place = .behindName
    · have hopening := hname hp lexeme rfl
      rw [closes_opening hopening] at hbalanced
      rw [rest_behindName hp, rest_behindName hp]
      refine ih hbalanced hchain.tail nofun ?_
      rw [hdepth, hp]
      rfl
    · cases hs : lexeme.symbol (place = .leading) with
      | error failure => rw [rest_failure hp hs, rest_failure hp hs]
      | ok symbol =>
        rw [rest_symbol hp hs, rest_symbol hp hs]
        refine Lexeme.inquire_congr hs fun mark hmark => ?_
        rw [Place.ahead_of_ne hp, Nat.add_zero] at hdepth
        rw [← hdepth] at hbalanced
        obtain ⟨after, count, hadd, hcount, hafter⟩ := hmark.exists_add hbalanced
        rw [ShuntingYard.add_within hadd, ShuntingYard.add_within hadd]
        refine ih hcount hchain.tail (fun hcall next hnext => ?_) hafter
        obtain ⟨hopens, hfunction⟩ := hmark.announces hcall
        exact (List.isChain_cons.mp hchain).1 next hnext hopens hfunction

/-- Right inside a parenthesis nothing is on the inner yard; a second opening parenthesis is one
more entry below it. -/
theorem rest_entered (hopening : opening.token.isOpening = true)
    (hclosing : closing.token.isClosing = true) {inside : List Lexeme}
    (hbalanced : closes 0 (inside.map Lexeme.token) = true)
    (hchain : (inside ++ [closing]).IsChain Lexeme.Announces) (behind : List Lexeme)
    {yard : ShuntingYard} (hstack : yard.stack.head? = some .parenthesis) :
    rest ⟨yard, .leading⟩ ending (inside ++ closing :: behind) =
      rest ⟨yard, .leading⟩ ending (opening :: (inside ++ closing :: closing :: behind)) := by
  obtain ⟨base, hbase⟩ := List.head?_eq_some_iff.mp hstack
  have hempty (below : List Waiting) :
      (ShuntingYard.of [] [] yard.functions).within yard.nodes below =
        .of yard.nodes (.parenthesis :: below) yard.functions := by
    rw [ShuntingYard.within_of, List.append_nil, List.nil_append]
  have hsingle : (ShuntingYard.of [] [] yard.functions).within yard.nodes base = yard := by
    rw [hempty, ← hbase, ← ShuntingYard.eq_of]
  have hdouble : (ShuntingYard.of [] [] yard.functions).within yard.nodes (.parenthesis :: base) =
      yard.openGroup := by
    rw [hempty, ← hbase, ShuntingYard.of, ShuntingYard.nodes, List.reverse_reverse]
    rfl
  refine Eq.trans ?_ (rest_opening (by decide) hopening).symm
  rw [← hdouble]
  conv_lhs => rw [← hsingle]
  exact rest_inside hclosing behind hbalanced hchain (fun hp => by cases hp) rfl

/-- Before the parentheses a conversion may stand anywhere; behind a name the first opening
parenthesis is passed over in both rows. -/
theorem rest_doubled (hopening : opening.token.isOpening = true)
    (hclosing : closing.token.isClosing = true) {inside : List Lexeme}
    (hbalanced : closes 0 (inside.map Lexeme.token) = true)
    (hchain : (inside ++ [closing]).IsChain Lexeme.Announces) (behind : List Lexeme)
    (ending : Option Failure) (conversion : Conversion) (h : conversion.Opened) :
    conversion.rest ending (opening :: (inside ++ closing :: behind)) =
      conversion.rest ending
        (opening :: opening :: (inside ++ closing :: closing :: behind)) := by
  obtain ⟨yard, place⟩ := conversion
  by_cases hp : place = .behindName
  · rw [rest_behindName hp, rest_behindName hp]
    exact rest_entered hopening hclosing hbalanced hchain behind (h hp)
  · rw [rest_opening hp hopening, rest_opening hp hopening]
    exact rest_entered hopening hclosing hbalanced hchain behind rfl

end Conversion

/-! ## Doubling a pair of parentheses -/

/-- Two streams of tokens that differ by a second pair of parentheses right inside a first, at other
places perhaps. The parentheses are a pair if the tokens between are balanced. -/
structure Doubling (stream other : TokenStream) where
  before : List Lexeme
  opening : Lexeme
  inside : List Lexeme
  closing : Lexeme
  behind : List Lexeme
  isOpening : opening.token.isOpening = true
  isClosing : closing.token.isClosing = true
  balanced : closes 0 (inside.map Lexeme.token) = true
  single : stream.lexemes = before ++ opening :: (inside ++ closing :: behind)
  double : List.Forall₂ Lexeme.Alike
    (before ++ opening :: opening :: (inside ++ closing :: closing :: behind)) other.lexemes
  ending : stream.ending.map Failure.unplaced = other.ending.map Failure.unplaced

namespace Doubling

variable {stream other : TokenStream}

/-- Between the parentheses no name is reported to open that has no parenthesis behind it. -/
def Truthful (doubling : Doubling stream other) : Prop :=
  (doubling.inside ++ [doubling.closing]).IsChain Lexeme.Announces

/-- What scans a text is truthful everywhere. -/
theorem truthful_of_text {text : String} (doubling : Doubling (.ofString text) other) :
    doubling.Truthful := by
  have hchain := TokenStream.isChain_announces text
  rw [doubling.single] at hchain
  have hinside := (List.isChain_cons.mp hchain.right_of_append).2
  rw [List.append_cons] at hinside
  exact hinside.left_of_append

theorem unnoted_convert_eq (doubling : Doubling stream other) (htruthful : doubling.Truthful) :
    stream.convert.unnoted.unplaced = other.convert.unnoted.unplaced := by
  have hrest := Conversion.rest_append_congr
    (Conversion.rest_doubled doubling.isOpening doubling.isClosing doubling.balanced htruthful
      doubling.behind stream.ending) doubling.before .start nofun
  have hplaces := TokenStream.readFrom_unplaced doubling.ending doubling.double .leading
  rw [TokenStream.unnoted_convert, TokenStream.unnoted_convert, TokenStream.reading,
    doubling.single]
  refine (congrArg Dialogue.unplaced hrest).trans ?_
  exact Reading.inquireFrom_unplaced hplaces .empty

end Doubling

/-- A second pair of parentheses is redundant: the conversion asks the same and comes to the same
postfix order, or fails in the same way, up to the place of a character in the failure. -/
theorem convert_doubled {σ : Type} {stream other : TokenStream} (doubling : Doubling stream other)
    (htruthful : doubling.Truthful) (source : Source σ) (state : σ) :
    SameUpToPlaces (stream.convert.run source state) (other.convert.run source state) :=
  Dialogue.sameUpToPlaces_of_eq (doubling.unnoted_convert_eq htruthful) source state

/-- The parentheses of a call, with a sign and a variable between them. -/
theorem convert_sine_of_doubled_negation :
    let source := (Bindings.empty.set 'x' 2).source
    ∃ doubling : Doubling (.ofString "2*sin(-x)+1") (.ofString "2*sin( (-x) )+1"),
      doubling.Truthful ∧
        ((convert "2*sin(-x)+1").run source ()).outcome =
          .ok [.number 2, .number 2, .call .sine, .negation, .operation .multiplication,
            .number 1, .operation .addition] ∧
        SameUpToPlaces ((convert "2*sin(-x)+1").run source ())
          ((convert "2*sin( (-x) )+1").run source ()) := by
  intro source
  let doubling : Doubling (.ofString "2*sin(-x)+1") (.ofString "2*sin( (-x) )+1") :=
    { before := [⟨⟨.number, ['2'], 0⟩, false⟩, ⟨⟨.operator, ['*'], 1⟩, false⟩,
        ⟨⟨.identifier, ['s', 'i', 'n'], 2⟩, true⟩]
      opening := ⟨⟨.punctuation, ['('], 5⟩, false⟩
      inside := [⟨⟨.operator, ['-'], 6⟩, false⟩, ⟨⟨.identifier, ['x'], 7⟩, false⟩]
      closing := ⟨⟨.punctuation, [')'], 8⟩, false⟩
      behind := [⟨⟨.operator, ['+'], 9⟩, false⟩, ⟨⟨.number, ['1'], 10⟩, false⟩]
      isOpening := by decide
      isClosing := by decide
      balanced := by decide
      single := by decide +kernel
      double := by decide +kernel
      ending := by decide +kernel }
  exact ⟨doubling, doubling.truthful_of_text, by decide +kernel,
    convert_doubled doubling doubling.truthful_of_text source ()⟩

/-- A scanner that reports `sin` to open, without a parenthesis behind it. The token behind the name
is passed over, so the first closing parenthesis closes the call and not the pair. -/
theorem doubled_around_misreported_sine :
    ∃ (stream other : TokenStream) (doubling : Doubling stream other),
      doubling.inside = [⟨⟨.number, ['1'], 1⟩, false⟩, ⟨⟨.operator, ['+'], 2⟩, false⟩,
        ⟨⟨.identifier, ['s', 'i', 'n'], 3⟩, true⟩, ⟨⟨.number, ['5'], 7⟩, false⟩] ∧
      (stream.convert.run Bindings.empty.source ()).outcome =
        .ok [.number 1, .operation .addition, .number 2, .call .sine, .operation .subtraction] ∧
      (other.convert.run Bindings.empty.source ()).outcome =
        .ok [.number 1, .operation .addition, .call .sine, .number 2, .operation .subtraction] ∧
      ¬ SameUpToPlaces (stream.convert.run Bindings.empty.source ())
        (other.convert.run Bindings.empty.source ()) := by
  let opening : Lexeme := ⟨⟨.punctuation, ['('], 0⟩, false⟩
  let inside : List Lexeme := [⟨⟨.number, ['1'], 1⟩, false⟩, ⟨⟨.operator, ['+'], 2⟩, false⟩,
    ⟨⟨.identifier, ['s', 'i', 'n'], 3⟩, true⟩, ⟨⟨.number, ['5'], 7⟩, false⟩]
  let closing : Lexeme := ⟨⟨.punctuation, [')'], 8⟩, false⟩
  let behind : List Lexeme := [⟨⟨.operator, ['-'], 9⟩, false⟩, ⟨⟨.number, ['2'], 10⟩, false⟩,
    ⟨⟨.punctuation, [')'], 11⟩, false⟩]
  let stream : TokenStream := ⟨opening :: (inside ++ closing :: behind), none⟩
  let other : TokenStream := ⟨opening :: opening :: (inside ++ closing :: closing :: behind), none⟩
  let doubling : Doubling stream other :=
    { before := [], opening, inside, closing, behind
      isOpening := by decide
      isClosing := by decide
      balanced := by decide
      single := rfl
      double := by decide
      ending := rfl }
  have hstream : (stream.convert.run Bindings.empty.source ()).outcome =
      .ok [.number 1, .operation .addition, .number 2, .call .sine, .operation .subtraction] := by
    decide +kernel
  have hother : (other.convert.run Bindings.empty.source ()).outcome =
      .ok [.number 1, .operation .addition, .call .sine, .number 2, .operation .subtraction] := by
    decide +kernel
  refine ⟨stream, other, doubling, rfl, hstream, hother, fun h => ?_⟩
  have houtcome := h.outcome
  rw [hstream, hother] at houtcome
  cases houtcome

end Calculator
