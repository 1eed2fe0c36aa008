import Calculator.Proofs.Conversion.Inquiry
import Calculator.Proofs.Conversion.Replacement
import Calculator.Proofs.Conversion.RunStep
import Calculator.Proofs.Number.Negation
import Calculator.Proofs.Yard.Enclosed

/-!
# Expressions put together

The conversion of an expression in parentheses is the conversion of the expression, and
that of two of them with an operator between is one after the other with the operator
behind. Nothing is required of the expressions but that they are converted and that no
function waits behind their last token; a waiting function would leave with an operator
of its own expression and not at the end.
-/
namespace Calculator

open Text TokenKind

variable {σ : Type} {source : Source σ} {state after : σ}

/-- The expression is converted, and no function waits behind its last token. -/
structure Complete (source : Source σ) (state : σ) (expression : String) (nodes : List Node) :
    Prop where
  converted : ((convert expression).run source state).outcome = .ok nodes
  complete : ((Conversion.start.addLexemes (TokenStream.ofString expression).lexemes).run source
    state).outcome.map (fun conversion => conversion.yard.functions) = .ok []

/-- A text is read to its end, and the yard has taken its marks and holds no function. -/
def Passes (source : Source σ) (state after : σ) (text : List Char) (nodes : List Node) : Prop :=
  ∃ symbols marks yard, readRuns .leading 0 (runs text) = ⟨symbols, none⟩ ∧
    (symbols.mapM (Symbol.resolve source)).run state = .ok (marks, after) ∧
    ShuntingYard.empty.addAll marks = .ok yard ∧ yard.functions = [] ∧ yard.finish = .ok nodes

/-! ## Complete expressions pass -/

/-- The yard behind the last token is the one that has taken the symbols. -/
theorem exists_conversion_of_take {expression : String} {symbols : List Symbol}
    {yard : ShuntingYard}
    (hreading : (TokenStream.ofString expression).reading = ⟨symbols, none⟩)
    (h : (ShuntingYard.empty.take source symbols).run state = .ok (yard, after)) :
    ∃ conversion, ((Conversion.start.addLexemes (TokenStream.ofString expression).lexemes).run
      source state).outcome = .ok conversion ∧ conversion.yard = yard := by
  let stream := TokenStream.ofString expression
  let last : Option Failure → ShuntingYard → Dialogue ShuntingYard
    | some failure, _ => .done (.error failure)
    | none, yard => pure yard
  have hlast : ∀ failure yard, last (some failure) yard = .done (.error failure) := fun _ _ => rfl
  have hunnoted := Conversion.unnoted_addLexemes hlast stream.ending stream.lexemes .start
  change _ = (Conversion.start.yard.inquire stream.reading.symbols >>= fun yard =>
    (last stream.reading.ending yard).unnoted) at hunnoted
  have hplay : ((Conversion.start.addLexemes stream.lexemes >>= fun final =>
      last stream.ending final.yard).play source).run state = .ok (yard, after) := by
    rw [← Dialogue.play_unnoted, hunnoted, hreading, Dialogue.play_bind,
      ShuntingYard.play_inquire, Answering.run_bind_eq_ok_iff]
    exact ⟨yard, after, h, rfl⟩
  rw [Dialogue.play_bind, Answering.run_bind_eq_ok_iff] at hplay
  obtain ⟨conversion, between, hc, hy⟩ := hplay
  refine ⟨conversion, (Dialogue.play_eq_ok_iff.mp hc).1, ?_⟩
  cases he : stream.ending with
  | some failure =>
    rw [he] at hy
    cases hy
  | none =>
    rw [he] at hy
    cases hy
    rfl

theorem Complete.passes {expression : String} {nodes : List Node}
    (h : Complete source state expression nodes) :
    Passes source state ((convert expression).run source state).state expression.toList nodes := by
  obtain ⟨hconverted, hcomplete⟩ := h
  obtain ⟨symbols, marks, yard, hr, hm, ha, hf⟩ :=
    exists_symbols_of_convert (Dialogue.play_eq_ok_iff.mpr ⟨hconverted, rfl⟩)
  have hreading : (TokenStream.ofString expression).reading = ⟨symbols, none⟩ := by
    rw [TokenStream.ofString_eq_ofRuns]
    exact hr
  have ht : (ShuntingYard.empty.take source symbols).run state =
      .ok (yard, ((convert expression).run source state).state) := by
    rw [ShuntingYard.take_of_mapM hm, ha]
    rfl
  obtain ⟨conversion, ho, rfl⟩ := exists_conversion_of_take hreading ht
  rw [ho] at hcomplete
  exact ⟨symbols, marks, conversion.yard, hr, hm, ha, Except.ok.inj hcomplete, hf⟩

/-! ## Parts of a text -/

/-- A part of a text contributes these symbols, wherever it stands and whatever follows it. -/
def Reads (place : Place) (part : List Char) (symbols : List Symbol) (next : Place) : Prop :=
  ∀ position rest, ∃ behind, readRuns place position (runs (part ++ rest)) =
    (readRuns next behind (runs rest)).prepend symbols

section Parts

variable {place next : Place} {part other : List Char} {symbols more : List Symbol}

theorem Reads.append {last : Place} (h : Reads place part symbols next)
    (hother : Reads next other more last) : Reads place (part ++ other) (symbols ++ more) last := by
  intro position rest
  obtain ⟨middle, hpart⟩ := h position (other ++ rest)
  obtain ⟨behind, hrest⟩ := hother middle rest
  refine ⟨behind, ?_⟩
  rw [List.append_assoc, hpart, hrest, Reading.prepend_prepend]

theorem reads_alone {c : Char} {kind : TokenKind} {symbol : Symbol} (hf : ofFirst? c = some kind)
    (hc : alone c = true) (hp : place ≠ .behindName)
    (hs : ∀ position behind, (runLexeme kind [c] position behind).symbol (place = .leading) =
      .ok symbol) : Reads place [c] [symbol] symbol.place := by
  intro position rest
  refine ⟨position + 1, ?_⟩
  rw [List.singleton_append, Spelling.runs_cons hc,
    readRuns_symbol (not_isBlank_of_admits (ofFirst?_eq_some_iff.mp hf)) hf hp (hs _ _)]
  rfl

theorem reads_sign : Reads .leading ['-'] [.sign] .inner :=
  reads_alone (by decide) (alone_symbol .subtraction) (by decide) fun _ _ => symbol_sign

theorem reads_operation (operator : Operator) :
    Reads .inner [operator.symbol] [.operation operator] .inner :=
  reads_alone (ofFirst?_symbol operator) (alone_symbol operator) (by decide) fun _ _ =>
    symbol_operation _ (.inl rfl)

theorem reads_blanks {blanks : List Char} (h : ∀ c ∈ blanks, isBlank c = true) (place : Place) :
    Reads place blanks [] place := by
  intro position rest
  induction blanks generalizing position with
  | nil => exact ⟨position, rfl⟩
  | cons c blanks ih =>
    have hc := h c List.mem_cons_self
    obtain ⟨behind, hrest⟩ := ih (fun d hd => h d (List.mem_cons_of_mem c hd)) (position + 1)
    refine ⟨behind, ?_⟩
    rw [List.cons_append, Spelling.runs_cons (alone_of_isBlank hc), readRuns_blank hc, hrest]

/-- Between two parentheses a text is read as it is read alone. -/
theorem reads_enclosed {text : List Char}
    (h : readRuns .leading 0 (runs text) = ⟨symbols, none⟩) (hp : place ≠ .behindName) :
    Reads place ('(' :: (text ++ [')'])) (.opening :: (symbols ++ [.closing])) .inner := by
  intro position rest
  have hopening : ofFirst? '(' = some .punctuation := by decide
  have hclosing : ofFirst? ')' = some .punctuation := by decide
  have hruns : runs (text ++ [')'] ++ rest) = runs text ++ [')'] :: runs rest := by
    rw [List.append_assoc]
    exact runs_append_cons alone_closing text rest
  have hrow : AreRuns (runs text ++ [')'] :: runs rest) := hruns ▸ areRuns_runs _
  have hmore : ([')'] :: runs rest).head? ≠ some ['('] := by
    rw [List.head?_cons]
    decide
  obtain ⟨last, hlast, hall⟩ := readRuns_append hrow hmore (fun h => Place.noConfusion h) h
  refine ⟨position + 1 + (runs text).flatten.length + 1, ?_⟩
  rw [List.cons_append, Spelling.runs_cons alone_opening, hruns,
    readRuns_symbol (by decide) hopening hp (symbol_opening _), Symbol.place, hall,
    readRuns_symbol (by decide) hclosing hlast (symbol_closing _)]
  simp only [Reading.cons, Reading.prepend, Symbol.place, List.append_assoc, List.cons_append,
    List.nil_append, List.length_singleton]

end Parts

/-- Where a conversion stands: the place, the state of the source and the yard. -/
structure Standing (σ : Type) where
  place : Place
  state : σ
  yard : ShuntingYard

/-- A part of a text takes a conversion from one standing to another. -/
def Carries (source : Source σ) (before : Standing σ) (part : List Char) (behind : Standing σ) :
    Prop :=
  ∃ symbols marks, Reads before.place part symbols behind.place ∧
    (symbols.mapM (Symbol.resolve source)).run before.state = .ok (marks, behind.state) ∧
    before.yard.addAll marks = .ok behind.yard

namespace Carries

open ShuntingYard

variable {before between behind : Standing σ} {part other : List Char}

theorem append (h : Carries source before part between)
    (hother : Carries source between other behind) :
    Carries source before (part ++ other) behind := by
  obtain ⟨symbols, marks, hr, hm, ha⟩ := h
  obtain ⟨more, others, hr', hm', ha'⟩ := hother
  refine ⟨symbols ++ more, marks ++ others, hr.append hr', Answering.run_mapM_append hm hm', ?_⟩
  rw [addAll_append_of_eq ha, ha']

variable {nodes more : List Node} {base : List Waiting}

theorem sign : Carries source ⟨.leading, state, of nodes base []⟩ ['-']
    ⟨.inner, state, of nodes (.negation :: base) []⟩ :=
  ⟨[.sign], [.sign], reads_sign, rfl, rfl⟩

theorem operation (operator : Operator) : Carries source ⟨.inner, state, of nodes [] []⟩
    [operator.symbol] ⟨.inner, state, of nodes [.operation operator] []⟩ := by
  refine ⟨[.operation operator], [.operation operator], reads_operation operator, rfl, ?_⟩
  rw [addAll_cons_of_eq (add_operation operator)]
  change Except.ok (of (nodes ++ []) _ _) = _
  rw [List.append_nil]
  rfl

theorem blanks {blanks : List Char} (h : ∀ c ∈ blanks, isBlank c = true) (standing : Standing σ) :
    Carries source standing blanks standing :=
  ⟨[], [], reads_blanks h standing.place, rfl, rfl⟩

/-- In parentheses a text lets leave what it lets leave alone, and nothing else changes. -/
theorem enclosed {text : List Char} (h : Passes source state after text more) {place : Place}
    (hp : place ≠ .behindName) :
    Carries source ⟨place, state, of nodes base []⟩ ('(' :: (text ++ [')']))
      ⟨.inner, after, of (nodes ++ more) base []⟩ := by
  obtain ⟨symbols, marks, yard, hr, hm, ha, hw, hf⟩ := h
  refine ⟨.opening :: (symbols ++ [.closing]), .opening :: (marks ++ [.closing]),
    reads_enclosed hr hp, ?_, addAll_between_parentheses ha hw hf⟩
  have hopening : ([Symbol.opening].mapM (Symbol.resolve source)).run state =
      .ok ([.opening], state) := rfl
  have hclosing : ([Symbol.closing].mapM (Symbol.resolve source)).run after =
      .ok ([.closing], after) := rfl
  exact Answering.run_mapM_append hopening (Answering.run_mapM_append hm hclosing)

/-- What carries a conversion from its start to the end of the text passes. -/
theorem passes {text : List Char} {yard : ShuntingYard} {place : Place}
    (h : Carries source ⟨.leading, state, .empty⟩ text ⟨place, after, yard⟩)
    (hw : yard.functions = []) (hf : yard.finish = .ok nodes) :
    Passes source state after text nodes := by
  obtain ⟨symbols, marks, hr, hm, ha⟩ := h
  obtain ⟨behind, hreading⟩ := hr 0 []
  rw [List.append_nil] at hreading
  refine ⟨symbols, marks, yard, hreading.trans ?_, hm, ha, hw, hf⟩
  change Reading.mk (symbols ++ []) none = _
  rw [List.append_nil]

end Carries

/-! ## The conversion of what is put together -/

theorem Passes.outcome {expression : String} {nodes : List Node}
    (h : Passes source state after expression.toList nodes) :
    ((convert expression).run source state).outcome = .ok nodes ∧
      ((convert expression).run source state).state = after := by
  obtain ⟨symbols, marks, yard, hr, hm, ha, -, hf⟩ := h
  rw [← Dialogue.play_eq_ok_iff, play_convert_eq, hr, Reading.playFrom,
    Answering.run_bind_eq_ok_iff]
  refine ⟨yard, after, ?_, ?_⟩
  · rw [ShuntingYard.take_of_mapM hm, ha]
    rfl
  · rw [Answering.run_ofOutcome_eq_ok_iff]
    exact ⟨hf, rfl⟩

theorem Passes.enclosed {text : List Char} {nodes : List Node}
    (h : Passes source state after text nodes) :
    Passes source state after ('(' :: (text ++ [')'])) nodes := by
  have hcarries : Carries source ⟨.leading, state, .of [] [] []⟩ ('(' :: (text ++ [')']))
      ⟨.inner, after, .of ([] ++ nodes) [] []⟩ := Carries.enclosed h (by decide)
  refine hcarries.passes rfl ?_
  rw [ShuntingYard.finish_of (by decide)]
  simp

theorem Passes.negated {text : List Char} {nodes : List Node}
    (h : Passes source state after text nodes) :
    Passes source state after (['-'] ++ '(' :: (text ++ [')'])) (nodes ++ [.negation]) := by
  have hsign : Carries source ⟨.leading, state, .of [] [] []⟩ ['-']
      ⟨.inner, state, .of [] [.negation] []⟩ := Carries.sign
  have hcarries : Carries source _ _ ⟨.inner, after, .of ([] ++ nodes) [.negation] []⟩ :=
    hsign.append (Carries.enclosed h (by decide))
  refine hcarries.passes rfl ?_
  rw [ShuntingYard.finish_of (by decide)]
  simp [Waiting.node?]

theorem Passes.joined {text other left right : List Char} {nodes more : List Node} {last : σ}
    (h : Passes source state after text nodes) (hother : Passes source after last other more)
    (hleft : ∀ c ∈ left, isBlank c = true) (hright : ∀ c ∈ right, isBlank c = true)
    (operator : Operator) :
    Passes source state last
      ('(' :: (text ++ [')']) ++
        (left ++ ([operator.symbol] ++ (right ++ '(' :: (other ++ [')'])))))
      (nodes ++ more ++ [.operation operator]) := by
  have hfirst : Carries source ⟨.leading, state, .of [] [] []⟩ ('(' :: (text ++ [')']))
      ⟨.inner, after, .of ([] ++ nodes) [] []⟩ := Carries.enclosed h (by decide)
  have hsecond : Carries source ⟨.inner, after, .of ([] ++ nodes) [.operation operator] []⟩
      ('(' :: (other ++ [')']))
      ⟨.inner, last, .of ([] ++ nodes ++ more) [.operation operator] []⟩ :=
    Carries.enclosed hother (by decide)
  have hcarries := hfirst.append ((Carries.blanks hleft _).append
    ((Carries.operation operator).append ((Carries.blanks hright _).append hsecond)))
  refine hcarries.passes rfl ?_
  rw [ShuntingYard.finish_of (by simp)]
  simp [Waiting.node?]

/-! ## The value of what is put together -/

/-- A node leaves alone what lies below its operands. -/
theorem Node.evaluate_above {node : Node} {stack rest : List Float}
    (h : node.evaluate stack = .ok rest) (below : List Float) :
    node.evaluate (stack ++ below) = .ok (rest ++ below) := by
  rcases node with value | _ | operator | function <;>
    rcases stack with _ | ⟨right, _ | ⟨left, stack⟩⟩ <;> cases h <;> rfl

theorem evaluateOn_above {nodes : List Node} (below : List Float) :
    ∀ {stack rest : List Float}, evaluateOn stack nodes = .ok rest →
      evaluateOn (stack ++ below) nodes = .ok (rest ++ below) := by
  induction nodes with
  | nil =>
    intro stack rest h
    cases h
    rfl
  | cons node nodes ih =>
    intro stack rest h
    rw [← List.singleton_append, Tree.evaluateOn_append] at h ⊢
    rw [evaluateOn, List.foldlM_cons] at h ⊢
    cases hn : node.evaluate stack with
    | error failure =>
      rw [hn] at h
      cases h
    | ok between =>
      rw [hn] at h
      rw [Node.evaluate_above hn]
      exact ih h

theorem evaluate_negated {nodes : List Node} {value : Float} (h : evaluate nodes = .ok value) :
    evaluate (nodes ++ [.negation]) = .ok (-value) := by
  rw [evaluate_eq_ok_iff] at h ⊢
  rw [Tree.evaluateOn_append, h]
  rfl

theorem evaluate_joined {nodes more : List Node} {left right : Float} (operator : Operator)
    (h : evaluate nodes = .ok left) (hmore : evaluate more = .ok right) :
    evaluate (nodes ++ more ++ [.operation operator]) = .ok (operator.apply left right) := by
  rw [evaluate_eq_ok_iff] at h hmore ⊢
  have hboth : evaluateOn ([] ++ [left]) more = .ok ([right] ++ [left]) := evaluateOn_above _ hmore
  rw [Tree.evaluateOn_append, Tree.evaluateOn_append, h, Except.bind]
  rw [List.nil_append] at hboth
  rw [hboth]
  rfl

theorem Passes.value {expression : String} {nodes : List Node}
    (h : Passes source state after expression.toList nodes) :
    ((calculate expression).run source state).outcome = evaluate nodes := by
  rw [run_calculate_outcome, h.outcome.1]
  rfl

/-- The expression in parentheses. -/
def parenthesized (expression : String) : String :=
  "(" ++ expression ++ ")"

/-- Two expressions in parentheses with an operator between, and blanks around the operator. -/
def parenthesizedAround (operator : Operator) (left right s t : String) : String :=
  parenthesized s ++ left ++ String.singleton operator.symbol ++ right ++ parenthesized t

/-- Complete expressions in parentheses are converted as they are alone, a sign before the first
leaves at its end and an operator between two behind both, and their values follow. The second
is asked for its variables after the first. -/
theorem convert_parenthesized {s : String} {nodes : List Node}
    (hs : Complete source state s nodes) :
    ((convert (parenthesized s)).run source state).outcome = .ok nodes ∧
    ((convert (parenthesized s)).run source state).state =
      ((convert s).run source state).state ∧
    ((convert ("-" ++ parenthesized s)).run source state).outcome = .ok (nodes ++ [.negation]) ∧
    (∀ value, ((calculate s).run source state).outcome = .ok value →
      ((calculate ("-" ++ parenthesized s)).run source state).outcome = .ok (-value) ∧
      ((calculate ("-" ++ parenthesized ("-" ++ parenthesized s))).run source state).outcome =
        .ok value) ∧
    ∀ t more, Complete source ((convert s).run source state).state t more →
      ∀ left right : String, (∀ c ∈ left.toList ++ right.toList, isBlank c = true) →
      ∀ operator : Operator,
        ((convert (parenthesizedAround operator left right s t)).run source state).outcome =
          .ok (nodes ++ more ++ [.operation operator]) ∧
        ∀ value other, ((calculate s).run source state).outcome = .ok value →
          ((calculate t).run source ((convert s).run source state).state).outcome = .ok other →
          ((calculate (parenthesizedAround operator left right s t)).run source state).outcome =
            .ok (operator.apply value other) := by
  have hpasses := hs.passes
  have henclosed : (parenthesized s).toList = '(' :: (s.toList ++ [')']) := by
    simp [parenthesized]
  have hvalue {value : Float} (h : ((calculate s).run source state).outcome = .ok value) :
      evaluate nodes = .ok value := by
    rwa [run_calculate_outcome, hs.converted] at h
  have hnegated : Passes source state ((convert s).run source state).state
      ("-" ++ parenthesized s).toList (nodes ++ [.negation]) := by
    rw [String.toList_append, henclosed]
    exact hpasses.negated
  have htwice : Passes source state ((convert s).run source state).state
      ("-" ++ parenthesized ("-" ++ parenthesized s)).toList
      (nodes ++ [.negation] ++ [.negation]) := by
    rw [String.toList_append]
    simpa [parenthesized] using hpasses.negated.negated
  obtain ⟨hconverted, hstate⟩ := Passes.outcome (henclosed ▸ hpasses.enclosed)
  refine ⟨hconverted, hstate, hnegated.outcome.1, ?_, ?_⟩
  · intro value h
    have hminus := evaluate_negated (hvalue h)
    refine ⟨hnegated.value.trans hminus, ?_⟩
    rw [htwice.value, evaluate_negated hminus, Number.neg_neg]
  · intro t more ht left right hblank operator
    have hjoined : Passes source state ((convert t).run source
        ((convert s).run source state).state).state
          (parenthesizedAround operator left right s t).toList
          (nodes ++ more ++ [.operation operator]) := by
      have hleft c (hc : c ∈ left.toList) := hblank c (List.mem_append_left _ hc)
      have hright c (hc : c ∈ right.toList) := hblank c (List.mem_append_right _ hc)
      simpa [parenthesizedAround, parenthesized] using
        hpasses.joined ht.passes hleft hright operator
    refine ⟨hjoined.outcome.1, ?_⟩
    intro value other h hother
    rw [run_calculate_outcome, ht.converted] at hother
    exact hjoined.value.trans (evaluate_joined operator (hvalue h) hother)

/-- Both inner texts end with operators that wait for the parenthesis. -/
theorem convert_parenthesized_sums :
    let source : Source Nat := ⟨fun _ asked => (.ok (if asked = 0 then "2" else "3"), asked + 1)⟩
    ((calculate "-(-(1+x*2))").run source 0).outcome = .ok 5 ∧
    ((convert "(1+x*2) - (4-x)").run source 0).outcome =
      .ok [.number 1, .number 2, .number 2, .operation .multiplication, .operation .addition,
        .number 4, .number 3, .operation .subtraction, .operation .subtraction] ∧
    ((calculate "(1+x*2) - (4-x)").run source 0).outcome = .ok 4 := by
  intro source
  have hs : Complete source 0 "1+x*2" [.number 1, .number 2, .number 2,
      .operation .multiplication, .operation .addition] :=
    ⟨by decide +kernel, by decide +kernel⟩
  have ht : Complete source ((convert "1+x*2").run source 0).state "4-x" [.number 4, .number 3,
      .operation .subtraction] :=
    ⟨by decide +kernel, by decide +kernel⟩
  have hvalue : ((calculate "1+x*2").run source 0).outcome = .ok 5 := by decide +kernel
  have hother : ((calculate "4-x").run source ((convert "1+x*2").run source 0).state).outcome =
      .ok 1 := by
    decide +kernel
  have hdifference : Operator.subtraction.apply 5 1 = 4 := by decide +kernel
  obtain ⟨-, -, -, hnegated, hjoined⟩ := convert_parenthesized hs
  have hblank : ∀ c ∈ " ".toList ++ " ".toList, isBlank c = true := by
    intro c hc
    obtain rfl : c = ' ' := by simpa using hc
    decide
  obtain ⟨hconverted, hcalculated⟩ := hjoined "4-x" _ ht " " " " hblank .subtraction
  have hjoinedValue := hcalculated 5 1 hvalue hother
  rw [hdifference] at hjoinedValue
  exact ⟨(hnegated 5 hvalue).2, hconverted, hjoinedValue⟩

end Calculator
