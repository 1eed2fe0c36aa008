import Calculator.Bindings
import Calculator.Proofs.Conversion.Spelled
import Calculator.Proofs.Yard.Weight

/-!
# What a calculated expression looks like

A text that is read to its end spells the marks of its symbols. If its calculation
returns a value, the marks have one operand more than operators, and they are a group
unless somewhere two operands stand side by side.
-/
namespace Calculator

open Text
open TokenKind (isNumeric ofFirst? ofFirst?_of_isNumeric ofFirst?_of_isAlphabetic
  ofFirst?_symbol ofFirst?_head?_singleton ofFirst?_eq_some_iff not_isBlank_of_admits
  cons_ne_parenthesis)

/-- Signs stand at the beginning and behind opening marks only. -/
def SignsLead {α : Type} : Bool → List (Mark α) → Prop
  | _, [] => True
  | leading, mark :: marks => (mark = .sign → leading = true) ∧ SignsLead mark.opens marks

/-- What a place still passes over. -/
def passed (place : Place) : List Char :=
  if place = .behindName then ['('] else []

theorem passed_of_ne {place : Place} (h : place ≠ .behindName) : passed place = [] := if_neg h

/-- A reading comes from a spelling. -/
def Spelled (place : Place) (row : List (List Char)) (symbols : List Symbol) : Prop :=
  ∃ marks text, row.flatten = passed place ++ text ∧ Spelling marks text ∧
    symbols = marks.map Mark.symbol ∧ SignsLead (place ≠ .inner) marks

section Recovery

variable {place : Place} {position : Nat} {behind : List (List Char)} {symbols : List Symbol}

theorem decide_place_ne_inner (mark : Mark Operand) :
    decide (mark.symbol.place ≠ .inner) = mark.opens := by
  cases mark with
  | operand operand => cases operand <;> rfl
  | call function => rfl
  | sign => rfl
  | operation operator => rfl
  | opening => rfl
  | closing => rfl

/-- A run and the rest of a row are spelled, if the run writes a mark. -/
theorem spelled_cons {run : List Char} {kind : TokenKind}
    (hk : ∀ c ∈ run.head?, ofFirst? c = some kind) (hne : run ≠ []) (hp : place ≠ .behindName) (mark : Mark Operand)
    (hchars : mark.chars = run ++ passed mark.symbol.place)
    (hs : (runLexeme kind run position behind).symbol (place = .leading) = .ok mark.symbol)
    (hsign : mark = .sign → place = .leading)
    (h : readRuns place position (run :: behind) = ⟨symbols, none⟩)
    (ih : ∀ position symbols, readRuns mark.symbol.place position behind = ⟨symbols, none⟩ →
      Spelled mark.symbol.place behind symbols) :
    Spelled place (run :: behind) symbols := by
  obtain ⟨first, others, rfl⟩ := List.exists_cons_of_ne_nil hne
  have hf : ofFirst? first = some kind := hk first rfl
  have hb : isBlank first = false := not_isBlank_of_admits (ofFirst?_eq_some_iff.mp hf)
  rw [readRuns_symbol hb hf hp hs] at h
  rcases hr : readRuns mark.symbol.place (position + (first :: others).length) behind with
    ⟨rest, ending⟩
  rw [hr] at h
  cases h
  obtain ⟨marks, text, htext, hspelling, rfl, hlead⟩ := ih _ rest hr
  rw [decide_place_ne_inner] at hlead
  refine ⟨mark :: marks, mark.chars ++ text, ?_, .mark mark hspelling, rfl, ?_, hlead⟩
  · rw [List.flatten_cons, htext, hchars, passed_of_ne hp, List.nil_append, List.append_assoc]
  · intro he
    rw [hsign he]
    rfl

theorem spelled_numeric {run : List Char} (hne : run ≠ [])
    (hall : ∀ c ∈ run, isNumeric c = true) (hp : place ≠ .behindName)
    (h : readRuns place position (run :: behind) = ⟨symbols, none⟩)
    (ih : ∀ place position symbols, readRuns place position behind = ⟨symbols, none⟩ →
      (place = .behindName → behind.head? = some ['(']) → Spelled place behind symbols) :
    Spelled place (run :: behind) symbols := by
  have hk : ∀ c ∈ run.head?, ofFirst? c = some .number := fun c hc =>
    ofFirst?_of_isNumeric (hall c (List.mem_of_mem_head? hc))
  by_cases hr : (∃ c ∈ run, c.isDigit) ∧ run.count '.' ≤ 1
  · let numeral : Numeral := ⟨run, hall, hr.1, hr.2⟩
    have hchars : Mark.chars (.operand (.numeral numeral)) = run ++ passed .inner :=
      (List.append_nil run).symm
    exact spelled_cons hk hne hp _ hchars (symbol_number _ numeral.read?_digits) nofun h
      fun position symbols hrest => ih .inner position symbols hrest nofun
  · have hv : Number.read? run = none := by
      rwa [← Option.not_isSome_iff_eq_none, Number.isSome_read?_iff hall]
    obtain ⟨first, others, rfl⟩ := List.exists_cons_of_ne_nil hne
    have hf : ofFirst? first = some .number := hk first rfl
    rw [readRuns_failure (not_isBlank_of_admits (ofFirst?_eq_some_iff.mp hf)) hf hp
      (symbol_number_failure _ hv)] at h
    cases h

theorem spelled_name {run : List Char} (hl : ∀ c, run ≠ [c]) (hne : run ≠ [])
    (hall : ∀ c ∈ run, isAlphabetic c = true) (hp : place ≠ .behindName)
    (h : readRuns place position (run :: behind) = ⟨symbols, none⟩)
    (ih : ∀ place position symbols, readRuns place position behind = ⟨symbols, none⟩ →
      (place = .behindName → behind.head? = some ['(']) → Spelled place behind symbols) :
    Spelled place (run :: behind) symbols := by
  have hk : ∀ c ∈ run.head?, ofFirst? c = some .identifier := fun c hc =>
    ofFirst?_of_isAlphabetic (hall c (List.mem_of_mem_head? hc))
  by_cases hf : (∃ function : NamedFunction, run = function.name) ∧ behind.head? = some ['(']
  · obtain ⟨⟨function, rfl⟩, hb⟩ := hf
    exact spelled_cons hk hne hp (.call function) rfl (symbol_call _ hb) nofun h
      fun position symbols hrest => ih .behindName position symbols hrest fun _ => hb
  · obtain ⟨first, others, rfl⟩ := List.exists_cons_of_ne_nil hne
    have hfirst : ofFirst? first = some .identifier := hk first rfl
    rw [readRuns_failure (not_isBlank_of_admits (ofFirst?_eq_some_iff.mp hfirst)) hfirst hp
      (symbol_name_failure _ hl hf)] at h
    cases h

theorem spelled_operation (operator : Operator) (hp : place ≠ .behindName)
    (h : readRuns place position ([operator.symbol] :: behind) = ⟨symbols, none⟩)
    (ih : ∀ place position symbols, readRuns place position behind = ⟨symbols, none⟩ →
      (place = .behindName → behind.head? = some ['(']) → Spelled place behind symbols) :
    Spelled place ([operator.symbol] :: behind) symbols := by
  have hk := ofFirst?_head?_singleton (ofFirst?_symbol operator)
  have hrest := fun position symbols hr => ih .inner position symbols hr nofun
  by_cases hs : place = .leading ∧ operator = .subtraction
  · obtain ⟨rfl, rfl⟩ := hs
    exact spelled_cons hk (List.cons_ne_nil _ _) hp .sign rfl symbol_sign (fun _ => rfl) h
      hrest
  · refine spelled_cons hk (List.cons_ne_nil _ _) hp (.operation operator) rfl
      (symbol_operation _ ?_) nofun h hrest
    by_cases hl : place = .leading
    · exact .inr fun hm => hs ⟨hl, hm⟩
    · exact .inl (decide_eq_false hl)

/-- Behind a name the parenthesis is a part of the call. -/
theorem spelled_opening (h : readRuns place position (['('] :: behind) = ⟨symbols, none⟩)
    (ih : ∀ place position symbols, readRuns place position behind = ⟨symbols, none⟩ →
      (place = .behindName → behind.head? = some ['(']) → Spelled place behind symbols) :
    Spelled place (['('] :: behind) symbols := by
  have hf : ofFirst? '(' = some .punctuation := by decide
  by_cases hp : place = .behindName
  · subst hp
    rw [readRuns_behindName (by decide) hf] at h
    obtain ⟨marks, text, htext, hs⟩ := ih .leading _ symbols h nofun
    exact ⟨marks, text, by rw [List.flatten_cons, htext]; rfl, hs⟩
  · have hk := ofFirst?_head?_singleton hf
    exact spelled_cons hk (List.cons_ne_nil _ _) hp .opening rfl (symbol_opening _) nofun h
      fun position symbols hr => ih .leading position symbols hr nofun

/-- The induction is on the runs. Where the reading stops early, there is nothing to show. -/
theorem spelled_of_readRuns {row : List (List Char)} (hrow : AreRuns row) :
    ∀ place position symbols, readRuns place position row = ⟨symbols, none⟩ →
      (place = .behindName → row.head? = some ['(']) → Spelled place row symbols := by
  induction row with
  | nil =>
    intro place position symbols h hb
    have hp : place ≠ .behindName := fun hp => by cases hb hp
    cases h
    exact ⟨[], [], by rw [passed_of_ne hp]; rfl, .nil, rfl, trivial⟩
  | cons run behind ih =>
    intro place position symbols h hb
    replace ih := ih hrow.tail
    have hp : run ≠ ['('] → place ≠ .behindName := fun hno hp => hno (Option.some.inj (hb hp))
    cases hrow.form with
    | @blank c hc =>
      have hno : [c] ≠ ['('] := by
        rintro ⟨⟩
        exact absurd hc (by decide)
      rw [readRuns_blank hc] at h
      obtain ⟨marks, text, htext, hspelling, hs⟩ :=
        ih place _ symbols h fun he => absurd he (hp hno)
      refine ⟨marks, c :: text, ?_, .blank hc hspelling, hs⟩
      rw [List.flatten_cons, htext, passed_of_ne (hp hno)]
      rfl
    | illegal hc hf =>
      rw [readRuns_illegal hc hf] at h
      cases h
    | numeric hne hall =>
      refine spelled_numeric hne hall (hp ?_) h ih
      rintro rfl
      exact absurd (hall '(' List.mem_cons_self) (by decide)
    | @letter c hc =>
      have hk := ofFirst?_head?_singleton (ofFirst?_of_isAlphabetic hc)
      have hno := (cons_ne_parenthesis (by rw [ofFirst?_of_isAlphabetic hc]; decide) []).1
      exact spelled_cons hk (List.cons_ne_nil _ _) (hp hno) (.operand (.letter ⟨c, hc⟩)) rfl
        (symbol_letter _ c) nofun h fun position symbols hr => ih .inner position symbols hr nofun
    | name hl hne hall => exact spelled_name hl hne hall (hp (hl _)) h ih
    | operation operator =>
      exact spelled_operation operator (hp (by cases operator <;> decide)) h ih
    | opening => exact spelled_opening h ih
    | closing =>
      have hk := @ofFirst?_head?_singleton ')' .punctuation (by decide)
      exact spelled_cons hk (List.cons_ne_nil _ _) (hp (by decide)) .closing rfl (symbol_closing _)
        nofun h fun position symbols hr => ih .inner position symbols hr nofun

end Recovery

/-! ## Valued marks weigh what the marks weigh -/

section Valued

variable {σ α β : Type} {f : α → Answering σ β}

theorem Mark.weight_of_mapM {mark : Mark α} {valued : Mark β} {state after : σ}
    (h : (mark.mapM f).run state = .ok (valued, after)) :
    mark.weight = valued.weight ∧ ∀ level, level? level [mark] = level? level [valued] := by
  cases mark with
  | operand a =>
    rw [Mark.mapM, Answering.run_map_eq_ok_iff] at h
    obtain ⟨value, -, rfl⟩ := h
    exact ⟨rfl, fun _ => rfl⟩
  | call function =>
    cases h
    exact ⟨rfl, fun _ => rfl⟩
  | sign =>
    cases h
    exact ⟨rfl, fun _ => rfl⟩
  | operation operator =>
    cases h
    exact ⟨rfl, fun _ => rfl⟩
  | opening =>
    cases h
    exact ⟨rfl, fun _ => rfl⟩
  | closing =>
    cases h
    exact ⟨rfl, fun level => by cases level <;> rfl⟩

theorem weight_of_mapM {marks : List (Mark α)} :
    ∀ {valued : List (Mark β)} {state after : σ},
      (marks.mapM (Mark.mapM f)).run state = .ok (valued, after) →
        weight marks = weight valued ∧ ∀ level, level? level marks = level? level valued := by
  induction marks with
  | nil =>
    intro valued state after h
    cases h
    exact ⟨rfl, fun _ => rfl⟩
  | cons mark marks ih =>
    intro valued state after h
    rw [List.mapM_cons, Answering.run_bind_eq_ok_iff] at h
    obtain ⟨first, between, hf, h⟩ := h
    rw [Answering.run_bind_eq_ok_iff] at h
    obtain ⟨rest, last, hr, h⟩ := h
    cases h
    obtain ⟨hw, hl⟩ := Mark.weight_of_mapM hf
    obtain ⟨hws, hls⟩ := ih hr
    constructor
    · rw [weight_cons, weight_cons, hw, hws]
    · intro level
      rw [level?_cons, level?_cons level first, hl]
      congr 1
      exact funext hls

end Valued

/-! ## Operands side by side -/

/-- The end of an operand stands directly before the beginning of another. -/
def SideBySide {α : Type} (marks : List (Mark α)) : Prop :=
  ∃ before ending beginning behind, marks = before ++ ending :: beginning :: behind ∧
    ending.endsOperand = true ∧ beginning.beginsOperand = true

theorem SideBySide.cons {α : Type} {marks : List (Mark α)} (h : SideBySide marks) (mark : Mark α) :
    SideBySide (mark :: marks) := by
  obtain ⟨before, ending, beginning, behind, rfl, he, hb⟩ := h
  exact ⟨mark :: before, ending, beginning, behind, rfl, he, hb⟩

theorem orderly_or_sideBySide {α : Type} {marks : List (Mark α)} :
    ∀ {stage : Stage}, SignsLead (stage = .leading) marks →
      (stage = .complete → ∀ mark ∈ marks.head?, mark.beginsOperand = false) →
        Orderly stage marks ∨ SideBySide marks := by
  induction marks with
  | nil => exact fun _ _ => .inl trivial
  | cons mark marks ih =>
    intro stage h hbegins
    obtain ⟨hsign, hrest⟩ := h
    have hlead : mark.opens = decide (mark.stage = .leading) := by cases mark <;> rfl
    rw [hlead] at hrest
    by_cases hside : mark.endsOperand = true ∧ ∃ next ∈ marks.head?, next.beginsOperand = true
    · obtain ⟨he, next, hn, hb⟩ := hside
      cases marks with
      | nil => cases hn
      | cons beginning behind =>
        cases hn
        exact .inr ⟨[], mark, _, behind, rfl, he, hb⟩
    · have hnext : mark.stage = .complete → ∀ next ∈ marks.head?, next.beginsOperand = false := by
        intro hs next hn
        have he : mark.endsOperand = true := by cases mark <;> first | rfl | cases hs
        by_contra hb
        rw [Bool.not_eq_false] at hb
        exact hside ⟨he, next, hn, hb⟩
      rcases ih hrest hnext with ho | ho
      · exact .inl ⟨fun hm => of_decide_eq_true (hsign hm), fun hs => hbegins hs mark rfl, ho⟩
      · exact .inr (ho.cons mark)

/-! ## Calculated expressions -/

variable {σ : Type} {source : Source σ}

/-- An expression that is converted spells marks that the source values and the yard accepts. -/
theorem exists_marks_of_convert {expression : String} {state after : σ} {nodes : List Node}
    (h : ((convert expression).play source).run state = .ok (nodes, after)) :
    ∃ marks valued yard, Spelling marks expression.toList ∧
      (TokenStream.ofString expression).reading = ⟨marks.map Mark.symbol, none⟩ ∧
      SignsLead true marks ∧ (marks.mapM (Mark.mapM source.read)).run state = .ok (valued, after) ∧
      ShuntingYard.empty.addAll valued = .ok yard ∧ yard.finish = .ok nodes := by
  have hreading : (TokenStream.ofString expression).reading =
      readRuns .leading 0 (runs expression.toList) := by
    rw [TokenStream.ofString_eq_ofRuns]
    rfl
  obtain ⟨symbols, valued, yard, hr, hv, ha, hf⟩ := exists_symbols_of_convert h
  obtain ⟨marks, text, htext, hspelling, rfl, hlead⟩ :=
    spelled_of_readRuns (areRuns_runs expression.toList) .leading 0 symbols hr fun h => by cases h
  rw [flatten_runs] at htext
  have hpassed : passed .leading ++ text = text := rfl
  rw [mapM_resolve] at hv
  rw [← hpassed, ← htext] at hspelling
  exact ⟨marks, valued, yard, hspelling, hreading.trans hr, hlead, hv, ha, hf⟩

/-- A calculated expression has one operand more than operators. It is a group, unless two operands
stand side by side somewhere. -/
theorem calculate_group_or_sideBySide {expression : String} {state : σ} {value : Float}
    (h : ((calculate expression).run source state).outcome = .ok value) :
    ∃ marks, Spelling marks expression.toList ∧
      (TokenStream.ofString expression).reading = ⟨marks.map Mark.symbol, none⟩ ∧
      weight marks = 1 ∧ ((∃ group : Group Operand, group.marks = marks) ∨ SideBySide marks) := by
  rw [Dialogue.run_outcome_eq_ok_iff] at h
  obtain ⟨last, h⟩ := h
  rw [play_calculate, Answering.run_bind_eq_ok_iff] at h
  obtain ⟨nodes, after, hc, he⟩ := h
  rw [Answering.run_ofOutcome_eq_ok_iff] at he
  obtain ⟨marks, valued, yard, hspelling, hreading, hlead, hv, ha, hf⟩ := exists_marks_of_convert hc
  obtain ⟨hw, hl⟩ := ShuntingYard.weight_and_level_of_evaluate ha hf he.1
  obtain ⟨hweight, hlevel⟩ := weight_of_mapM hv
  rw [← hweight] at hw
  rw [← hlevel] at hl
  refine ⟨marks, hspelling, hreading, hw, ?_⟩
  have hstart : SignsLead (decide (Stage.leading = .leading)) marks := hlead
  rcases orderly_or_sideBySide hstart nofun with ho | ho
  · exact .inl (exists_group_of_weight ho hl hw)
  · exact .inr ho

theorem calculate_enclosed_two_plus_three :
    ((calculate "(2)+3").run Bindings.empty.source ()).outcome = .ok 5 ∧
      ∃ marks, Spelling marks "(2)+3".toList ∧
        (TokenStream.ofString "(2)+3").reading = ⟨marks.map Mark.symbol, none⟩ ∧
        weight marks = 1 ∧
          ((∃ group : Group Operand, group.marks = marks) ∨ SideBySide marks) := by
  have hv : ((calculate "(2)+3").run Bindings.empty.source ()).outcome = .ok 5 := by decide +kernel
  exact ⟨hv, calculate_group_or_sideBySide hv⟩

theorem Mark.eq_operand_of_symbol {mark : Mark Operand} {value : Float}
    (h : mark.symbol = .number value) : ∃ operand, mark = .operand operand := by
  cases mark with
  | operand operand => exact ⟨operand, rfl⟩
  | _ => cases h

/-- Two numbers side by side are no beginning of a group. -/
theorem map_symbol_ne_numbers (group : Group Operand) (left right : Float) (symbols : List Symbol) :
    group.marks.map Mark.symbol ≠ .number left :: .number right :: symbols := by
  intro h
  have ht := group.through?_marks
  rcases hm : group.marks with _ | ⟨first, _ | ⟨second, rest⟩⟩
  · rw [hm] at h
    cases h
  · rw [hm] at h
    have hrest := (List.cons.inj h).2
    cases hrest
  · rw [hm, List.map_cons, List.map_cons, List.cons.injEq, List.cons.injEq] at h
    obtain ⟨a, rfl⟩ := Mark.eq_operand_of_symbol h.1
    obtain ⟨b, rfl⟩ := Mark.eq_operand_of_symbol h.2.1
    rw [hm] at ht
    cases ht

theorem calculate_two_three_plus :
    ((calculate "2 3 +").run Bindings.empty.source ()).outcome = .ok 5 ∧
      ¬ ∃ group : Group Operand, Spelling group.marks "2 3 +".toList := by
  refine ⟨by decide +kernel, ?_⟩
  rintro ⟨group, hs⟩
  have hread := congrArg Reading.symbols
    (hs.readRuns_eq group.through?_marks 0 .leading nofun (by decide))
  have hsymbols : (readRuns .leading 0 (runs "2 3 +".toList)).symbols =
      [.number 2, .number 3, .operation .addition] := by decide +kernel
  rw [hsymbols] at hread
  exact map_symbol_ne_numbers group 2 3 _ hread.symm

end Calculator
