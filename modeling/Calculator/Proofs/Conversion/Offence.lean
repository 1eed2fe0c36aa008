import Calculator.Proofs.Conversion.Answers
import Calculator.Proofs.Conversion.RunByRun
import Calculator.Proofs.Number.Numeral
import Calculator.Proofs.Yard.Nesting

/-!
# The first offence of an expression

A run offends if it is a character of no class, digits and points that are no numeral,
a longer name that is no call, a variable without a readable value, or a closing
parenthesis without a partner. A conversion fails at the first run that does. If none
does it fails only for a parenthesis that stays open. Whether operands and operators
alternate is no concern of the conversion.
-/
namespace Calculator

open Text TokenKind

/-- The variables among the runs, in their order. -/
def loneLetters (row : List (List Char)) : List Char :=
  row.flatMap fun run =>
    match run with
    | [c] => if isAlphabetic c then [c] else []
    | _ => []

/-- The failure that a run causes between the runs before and behind it. The source starts in the
given state and has been asked for the variables before the run. -/
def offence? {σ : Type} (source : Source σ) (start : σ) (before : List (List Char)) :
    List Char → List (List Char) → Option Failure
  | [], _ => none
  | first :: others, behind =>
    let run := first :: others
    if isNumeric first then
      if run.any Char.isDigit ∧ run.count '.' ≤ 1 then none else some (.invalidNumber run)
    else if isAlphabetic first then
      if others = [] then source.refusal? first (source.after (loneLetters before) start)
      else if (∃ function ∈ NamedFunction.all, run = function.name) ∧ behind.head? = some ['('] then
        none
      else some (.unknownIdentifier run)
    else if first = ')' then
      if before.count [')'] < before.count ['('] then none else some .unopenedParenthesis
    else if isBlank first || isOperator first || first = '(' then none
    else some (.invalidCharacter first before.flatten.length)

/-- The failure of the first run of a row that offends. -/
def firstOffence? {σ : Type} (source : Source σ) (start : σ) (before : List (List Char)) :
    List (List Char) → Option Failure
  | [] => none
  | run :: behind =>
    (offence? source start before run behind).or
      (firstOffence? source start (before ++ [run]) behind)

section Offences

variable {σ : Type} {source : Source σ} {start : σ} {before behind : List (List Char)}

theorem offence?_alone {c : Char} (h : alone c = true) : offence? source start before [c] behind =
    if c = ')' then
      if before.count [')'] < before.count ['('] then none else some .unopenedParenthesis
    else if isBlank c || isOperator c || c = '(' then none
    else some (.invalidCharacter c before.flatten.length) := by
  simp only [alone, Bool.and_eq_true, Bool.not_eq_true'] at h
  simp [offence?, h]

theorem offence?_blank {c : Char} (h : isBlank c = true) :
    offence? source start before [c] behind = none := by
  have hc : c ≠ ')' := by
    rintro rfl
    exact absurd h (by decide)
  rw [offence?_alone (alone_of_isBlank h), if_neg hc, h]
  rfl

theorem offence?_illegal {c : Char} (hb : isBlank c = false) (h : ofFirst? c = none) :
    offence? source start before [c] behind =
      some (.invalidCharacter c before.flatten.length) := by
  have hp : isParenthesis c = false := admits_of_ofFirst?_eq_none h .punctuation
  have ho : isOperator c = false := admits_of_ofFirst?_eq_none h .operator
  simp only [isParenthesis, Bool.or_eq_false_iff, decide_eq_false_iff_not] at hp
  rw [offence?_alone (alone_of_ofFirst?_eq_none h), if_neg hp.2, hb, ho]
  simp [hp.1]

theorem offence?_operation (operator : Operator) :
    offence? source start before [operator.symbol] behind = none := by
  cases operator <;> exact offence?_alone (alone_symbol _)

theorem offence?_opening : offence? source start before ['('] behind = none :=
  offence?_alone alone_opening

theorem offence?_closing : offence? source start before [')'] behind =
    if before.count [')'] < before.count ['('] then none else some .unopenedParenthesis :=
  offence?_alone alone_closing

theorem offence?_letter {c : Char} (h : isAlphabetic c = true) :
    offence? source start before [c] behind =
      source.refusal? c (source.after (loneLetters before) start) := by
  have hk : identifier.Admits c = true := h
  have hn : isNumeric c = false := admits_eq_false hk .number (by decide)
  simp [offence?, hn, h]

theorem offence?_numeric {run : List Char} (hne : run ≠ []) (h : ∀ c ∈ run, isNumeric c = true) :
    offence? source start before run behind =
      if run.any Char.isDigit ∧ run.count '.' ≤ 1 then none else some (.invalidNumber run) := by
  rcases run with _ | ⟨first, others⟩
  · exact absurd rfl hne
  · rw [offence?, if_pos (h first List.mem_cons_self)]

theorem offence?_name {run : List Char} (hl : ∀ c, run ≠ [c]) (hne : run ≠ [])
    (h : ∀ c ∈ run, isAlphabetic c = true) :
    offence? source start before run behind =
      if (∃ function ∈ NamedFunction.all, run = function.name) ∧ behind.head? = some ['('] then
        none
      else some (.unknownIdentifier run) := by
  rcases run with _ | ⟨first, others⟩
  · exact absurd rfl hne
  · have hk : identifier.Admits first = true := h first List.mem_cons_self
    have hn : isNumeric first = false := admits_eq_false hk .number (by decide)
    have ho : others ≠ [] := by
      rintro rfl
      exact hl first rfl
    rw [offence?, if_neg (by rw [hn]; exact Bool.false_ne_true),
      if_pos (h first List.mem_cons_self), if_neg ho]

end Offences

/-! ## The conversion meets the first offence -/

/-- The result of a conversion whose first offence is known, in an expression of these runs. -/
def Settles {α : Type} (whole : List (List Char)) : Option Failure → Except Failure α → Prop
  | some failure, result => result = .error failure
  | none, result =>
    if whole.count ['('] = whole.count [')'] then ∃ value, result = .ok value
    else result = .error .unclosedParenthesis

section Settling

variable {σ : Type} {source : Source σ} {start : σ} {before behind : List (List Char)}
  {first : Char} {others : List Char} {place : Place} {yard : ShuntingYard}

theorem playFrom_refused {symbol : Symbol} {reading : Reading} {state : σ} {failure : Failure}
    (h : (symbol.resolve source).run state = .error failure) :
    ((reading.cons symbol).playFrom source yard).run state = .error failure := by
  change (symbol.resolve source state >>= _) >>= _ = _
  rw [show symbol.resolve source state = .error failure from h]
  rfl

theorem playFrom_cons {symbol : Symbol} {reading : Reading} {state next : σ} {mark : Mark Value}
    (h : (symbol.resolve source).run state = .ok (mark, next)) :
    ((reading.cons symbol).playFrom source yard).run state =
      (yard.add mark >>= fun after => (reading.playFrom source after).run next) := by
  change (symbol.resolve source state >>= _) >>= _ = _
  rw [show symbol.resolve source state = .ok (mark, next) from h]
  change (Answering.ofOutcome (yard.add mark) next >>= _) >>= _ = _
  cases yard.add mark <;> rfl

/-- A place behind some runs and before others. The depth of the yard is told by the runs that are
through; a call has opened its parenthesis one run early. -/
structure Reached (before row : List (List Char)) (place : Place) (yard : ShuntingYard) : Prop where
  name : place = .behindName → row.head? = some ['(']
  depth : yard.depth + before.count [')'] =
    before.count ['('] + (if place = .behindName then 1 else 0)

/-- The rest of a conversion is settled by the runs that it has before it. -/
def Settled (source : Source σ) (start : σ) (before row : List (List Char)) (place : Place)
    (yard : ShuntingYard) : Prop :=
  Settles (before ++ row) (firstOffence? source start before row)
    (((readRuns place before.flatten.length row).playFrom source yard).run
      (source.after (loneLetters before) start))

theorem Reached.ne_behindName {run : List Char} (h : Reached before (run :: behind) place yard)
    (hr : run ≠ ['(']) : place ≠ .behindName := by
  intro hp
  exact hr (Option.some.inj (h.name hp))

theorem Reached.depth_eq {run : List Char} (h : Reached before (run :: behind) place yard)
    (hr : run ≠ ['(']) : yard.depth + before.count [')'] = before.count ['('] := by
  have hd := h.depth
  rwa [if_neg (h.ne_behindName hr)] at hd

/-- Behind a run that is no parenthesis. -/
theorem Reached.next {run : List Char} (h : Reached before (run :: behind) place yard)
    (ho : run ≠ ['(']) (hc : run ≠ [')']) {after : ShuntingYard} (hd : after.depth = yard.depth)
    {next : Place} (hn : next ≠ .behindName) : Reached (before ++ [run]) behind next after := by
  refine ⟨fun hp => absurd hp hn, ?_⟩
  have he := h.depth_eq ho
  rw [if_neg hn, List.count_append, List.count_append, List.count_singleton, List.count_singleton]
  simp only [beq_iff_eq, ho, hc, if_false]
  omega

theorem settled_nil (h : Reached before [] place yard) :
    Settled source start before [] place yard := by
  have hp : place ≠ .behindName := fun hp => by cases h.name hp
  have hd := h.depth
  rw [if_neg hp] at hd
  change Settles (before ++ []) none ((Answering.ofOutcome yard.finish) _)
  rw [List.append_nil, Settles]
  split
  · rename_i hcount
    have hz : yard.depth = 0 := by omega
    obtain ⟨nodes, hf⟩ := ShuntingYard.exists_finish hz
    exact ⟨_, by rw [hf]; rfl⟩
  · have hpos : 0 < yard.depth := by omega
    rw [ShuntingYard.finish_of_depth_pos hpos]
    rfl

theorem settled_offence {run : List Char} {failure : Failure}
    (ho : offence? source start before run behind = some failure)
    (hr : ((readRuns place before.flatten.length (run :: behind)).playFrom source yard).run
      (source.after (loneLetters before) start) = .error failure) :
    Settled source start before (run :: behind) place yard := by
  rw [Settled, firstOffence?, ho]
  exact hr

/-- A run without an offence leaves the question to the runs behind it. -/
theorem settled_cons {run : List Char} {next : Place} {after : ShuntingYard}
    (ho : offence? source start before run behind = none)
    (hr : ((readRuns place before.flatten.length (run :: behind)).playFrom source yard).run
        (source.after (loneLetters before) start) =
      ((readRuns next (before ++ [run]).flatten.length behind).playFrom source after).run
        (source.after (loneLetters (before ++ [run])) start))
    (h : Settled source start (before ++ [run]) behind next after) :
    Settled source start before (run :: behind) place yard := by
  rw [Settled, firstOffence?, ho, hr, Option.none_or]
  rw [Settled, List.append_assoc] at h
  exact h

theorem loneLetters_concat (run : List Char) :
    loneLetters (before ++ [run]) = loneLetters before ++ loneLetters [run] :=
  List.flatMap_append

theorem loneLetters_of_alone {c : Char} (h : alone c = true) : loneLetters [[c]] = [] := by
  simp only [alone, Bool.and_eq_true, Bool.not_eq_true'] at h
  simp [loneLetters, h]

theorem loneLetters_of_ne {run : List Char} (h : ∀ c, run ≠ [c]) : loneLetters [run] = [] := by
  rcases run with _ | ⟨c, _ | ⟨d, rest⟩⟩
  · rfl
  · exact absurd rfl (h c)
  · rfl

/-- A run that reads as a symbol, whose mark the yard accepts. -/
theorem settled_symbol {kind : TokenKind} (hf : ofFirst? first = some kind)
    (hp : place ≠ .behindName) {symbol : Symbol}
    (hs : (runLexeme kind (first :: others) before.flatten.length behind).symbol
      (place = .leading) = .ok symbol)
    {mark : Mark Value}
    (hm : (symbol.resolve source).run (source.after (loneLetters before) start) =
      .ok (mark, source.after (loneLetters (before ++ [first :: others])) start))
    {after : ShuntingYard} (ha : yard.add mark = .ok after)
    (ho : offence? source start before (first :: others) behind = none)
    (h : Settled source start (before ++ [first :: others]) behind symbol.place after) :
    Settled source start before ((first :: others) :: behind) place yard := by
  have hb : isBlank first = false := not_isBlank_of_admits (ofFirst?_eq_some_iff.mp hf)
  refine settled_cons ho ?_ h
  rw [readRuns_symbol hb hf hp hs, playFrom_cons hm, ha]
  simp only [List.flatten_append, List.flatten_singleton, List.length_append]
  rfl

theorem after_concat {run : List Char} (h : loneLetters [run] = []) :
    source.after (loneLetters (before ++ [run])) start =
      source.after (loneLetters before) start := by
  rw [loneLetters_concat, h, List.append_nil]

/-- The same for a symbol with a mark that no answer has a part in. -/
theorem settled_plain {kind : TokenKind} (hf : ofFirst? first = some kind)
    (hr : Reached before ((first :: others) :: behind) place yard) (hno : first :: others ≠ ['('])
    (hnc : first :: others ≠ [')']) (hl : loneLetters [first :: others] = [])
    {symbol : Symbol}
    (hs : (runLexeme kind (first :: others) before.flatten.length behind).symbol
      (place = .leading) = .ok symbol)
    {mark : Mark Value} (hm : symbol.resolve source = pure mark)
    (hopens : mark.opens = false) (hclosing : mark ≠ .closing) (hplace : symbol.place = .inner)
    (ho : offence? source start before (first :: others) behind = none)
    (ih : ∀ after, Reached (before ++ [first :: others]) behind .inner after →
      Settled source start (before ++ [first :: others]) behind .inner after) :
    Settled source start before ((first :: others) :: behind) place yard := by
  obtain ⟨after, ha, hd⟩ := yard.exists_add_plain mark hopens hclosing
  refine settled_symbol hf (hr.ne_behindName hno) hs ?_ ha ho ?_
  · rw [hm, after_concat hl]
    rfl
  · rw [hplace]
    exact ih after (hr.next hno hnc hd (by decide))

theorem settled_blank {c : Char} (hb : isBlank c = true)
    (h : Reached before ([c] :: behind) place yard)
    (ih : ∀ next after, Reached (before ++ [[c]]) behind next after →
      Settled source start (before ++ [[c]]) behind next after) :
    Settled source start before ([c] :: behind) place yard := by
  have hf : ofFirst? c ≠ some .punctuation := by
    rw [ofFirst?_of_isBlank hb]
    nofun
  obtain ⟨hno, hnc⟩ := cons_ne_parenthesis hf []
  have hnext := ih place yard (h.next hno hnc rfl (h.ne_behindName hno))
  refine settled_cons (offence?_blank hb) ?_ hnext
  rw [readRuns_blank hb, after_concat (loneLetters_of_alone (alone_of_isBlank hb))]
  simp only [List.flatten_append, List.flatten_singleton, List.length_append,
    List.length_singleton]

theorem settled_illegal {c : Char} (hb : isBlank c = false) (hf : ofFirst? c = none) :
    Settled source start before ([c] :: behind) place yard := by
  refine settled_offence (offence?_illegal hb hf) ?_
  rw [readRuns_illegal hb hf]
  rfl

theorem settled_numeric (hall : ∀ c ∈ first :: others, isNumeric c = true)
    (h : Reached before ((first :: others) :: behind) place yard)
    (ih : ∀ next after, Reached (before ++ [first :: others]) behind next after →
      Settled source start (before ++ [first :: others]) behind next after) :
    Settled source start before ((first :: others) :: behind) place yard := by
  have hn := hall first List.mem_cons_self
  have hf := ofFirst?_of_isNumeric hn
  obtain ⟨hno, hnc⟩ := cons_ne_parenthesis (by rw [hf]; decide) others
  have ho : offence? source start before (first :: others) behind = _ :=
    offence?_numeric (List.cons_ne_nil first others) hall
  split at ho
  · rename_i hr
    rw [List.any_eq_true] at hr
    obtain ⟨value, hv⟩ := Option.isSome_iff_exists.mp ((Number.isSome_read?_iff hall).mpr hr)
    have hl : loneLetters [first :: others] = [] := by
      cases others with
      | nil => simp [loneLetters, isAlphabetic_of_isNumeric hn]
      | cons second rest => rfl
    exact settled_plain hf h hno hnc hl (symbol_number _ hv) rfl rfl (by simp) rfl ho (ih .inner)
  · rename_i hr
    rw [List.any_eq_true] at hr
    have hv : Number.read? (first :: others) = none := by
      rwa [← Option.not_isSome_iff_eq_none, Number.isSome_read?_iff hall]
    refine settled_offence ho ?_
    rw [readRuns_failure (not_isBlank_of_admits (ofFirst?_eq_some_iff.mp hf)) hf
      (h.ne_behindName hno) (symbol_number_failure _ hv)]
    rfl

theorem settled_letter {c : Char} (hc : isAlphabetic c = true)
    (h : Reached before ([c] :: behind) place yard)
    (ih : ∀ next after, Reached (before ++ [[c]]) behind next after →
      Settled source start (before ++ [[c]]) behind next after) :
    Settled source start before ([c] :: behind) place yard := by
  have hf := ofFirst?_of_isAlphabetic hc
  obtain ⟨hno, hnc⟩ := cons_ne_parenthesis (by rw [hf]; decide) []
  have hp := h.ne_behindName hno
  have ho : offence? source start before [c] behind = _ := offence?_letter hc
  cases hr : source.refusal? c (source.after (loneLetters before) start) with
  | some failure =>
    refine settled_offence (ho.trans hr) ?_
    rw [readRuns_symbol (not_isBlank_of_admits (ofFirst?_eq_some_iff.mp hf)) hf hp
      (symbol_letter _ c)]
    refine playFrom_refused ?_
    rw [Symbol.resolve, StateT.run_map, Source.value_of_refusal hr]
    rfl
  | none =>
    obtain ⟨value, hv⟩ := Source.value_of_not_refusal hr
    obtain ⟨after, ha, hd⟩ := yard.exists_add_plain (.operand (.answered value)) rfl (by simp)
    refine settled_symbol hf hp (symbol_letter _ c) ?_ ha (ho.trans hr)
      (ih .inner after (h.next hno hnc hd (by decide)))
    have hl : loneLetters [[c]] = [c] := by simp [loneLetters, hc]
    rw [Symbol.resolve, StateT.run_map, hv, loneLetters_concat, hl, Source.after_append]
    rfl

theorem settled_name (hl : ∀ c, first :: others ≠ [c])
    (hall : ∀ c ∈ first :: others, isAlphabetic c = true)
    (h : Reached before ((first :: others) :: behind) place yard)
    (ih : ∀ next after, Reached (before ++ [first :: others]) behind next after →
      Settled source start (before ++ [first :: others]) behind next after) :
    Settled source start before ((first :: others) :: behind) place yard := by
  have hf := ofFirst?_of_isAlphabetic (hall first List.mem_cons_self)
  have hp := h.ne_behindName (hl _)
  have hb := not_isBlank_of_admits (ofFirst?_eq_some_iff.mp hf)
  have ho : offence? source start before (first :: others) behind = _ :=
    offence?_name hl (List.cons_ne_nil first others) hall
  split at ho
  · rename_i hr
    obtain ⟨⟨function, -, hn⟩, hbehind⟩ := hr
    obtain ⟨after, ha, hd⟩ := yard.exists_add_opens (.call function) rfl
    have hs : (runLexeme .identifier (first :: others) before.flatten.length behind).symbol
        (place = .leading) = .ok (.call function) := by
      rw [hn]
      exact symbol_call _ hbehind
    refine settled_symbol hf hp hs ?_ ha ho (ih .behindName after ⟨fun _ => hbehind, ?_⟩)
    · rw [after_concat (loneLetters_of_ne hl)]
      rfl
    · have he := h.depth_eq (hl _)
      have hno : first :: others ≠ ['('] := hl _
      have hnc : first :: others ≠ [')'] := hl _
      rw [if_pos rfl, List.count_append, List.count_append, List.count_singleton,
        List.count_singleton]
      simp only [beq_iff_eq, hno, hnc, if_false]
      omega
  · rename_i hr
    refine settled_offence ho ?_
    rw [readRuns_failure hb hf hp (symbol_name_failure _ hl ?_)]
    · rfl
    · rintro ⟨⟨function, hn⟩, hbehind⟩
      exact hr ⟨⟨function, by cases function <;> decide, hn⟩, hbehind⟩

theorem settled_operation (operator : Operator)
    (h : Reached before ([operator.symbol] :: behind) place yard)
    (ih : ∀ next after, Reached (before ++ [[operator.symbol]]) behind next after →
      Settled source start (before ++ [[operator.symbol]]) behind next after) :
    Settled source start before ([operator.symbol] :: behind) place yard := by
  have hf := ofFirst?_symbol operator
  obtain ⟨hno, hnc⟩ := cons_ne_parenthesis (by rw [hf]; decide) []
  have hl := loneLetters_of_alone (alone_symbol operator)
  by_cases hs : place = .leading ∧ operator = .subtraction
  · obtain ⟨rfl, rfl⟩ := hs
    exact settled_plain hf h hno hnc hl symbol_sign rfl rfl (by simp) rfl (offence?_operation _)
      (ih .inner)
  · refine settled_plain hf h hno hnc hl (symbol_operation _ ?_) rfl rfl (by simp) rfl
      (offence?_operation operator) (ih .inner)
    by_cases hp : place = .leading
    · exact .inr fun hm => hs ⟨hp, hm⟩
    · exact .inl (decide_eq_false hp)

theorem settled_opening (h : Reached before (['('] :: behind) place yard)
    (ih : ∀ next after, Reached (before ++ [['(']]) behind next after →
      Settled source start (before ++ [['(']]) behind next after) :
    Settled source start before (['('] :: behind) place yard := by
  have hf : ofFirst? '(' = some .punctuation := by decide
  have hl := loneLetters_of_alone alone_opening
  have hd := h.depth
  by_cases hp : place = .behindName
  · subst hp
    rw [if_pos rfl] at hd
    refine settled_cons offence?_opening ?_ (ih .leading yard ⟨nofun, ?_⟩)
    · rw [readRuns_behindName (by decide) hf, after_concat hl]
      simp only [List.flatten_append, List.flatten_singleton, List.length_append]
    · simpa using hd
  · rw [if_neg hp] at hd
    obtain ⟨after, ha, hda⟩ := yard.exists_add_opens .opening rfl
    refine settled_symbol hf hp (symbol_opening _) ?_ ha offence?_opening
      (ih .leading after ⟨nofun, ?_⟩)
    · rw [after_concat hl]
      rfl
    · simp only [List.count_append, List.count_singleton]
      simp
      omega

theorem settled_closing (h : Reached before ([')'] :: behind) place yard)
    (ih : ∀ next after, Reached (before ++ [[')']]) behind next after →
      Settled source start (before ++ [[')']]) behind next after) :
    Settled source start before ([')'] :: behind) place yard := by
  have hf : ofFirst? ')' = some .punctuation := by decide
  have hl := loneLetters_of_alone alone_closing
  have hp := h.ne_behindName (by decide)
  have hd := h.depth_eq (by decide)
  have ho : offence? source start before [')'] behind = _ := offence?_closing
  by_cases hc : before.count [')'] < before.count ['(']
  · rw [if_pos hc] at ho
    have hpos : 0 < yard.depth := by omega
    obtain ⟨after, ha, hda⟩ := ShuntingYard.exists_add_closing hpos
    refine settled_symbol hf hp (symbol_closing _) ?_ ha ho (ih .inner after ⟨nofun, ?_⟩)
    · rw [after_concat hl]
      rfl
    · simp only [List.count_append, List.count_singleton]
      simp
      omega
  · rw [if_neg hc] at ho
    refine settled_offence ho ?_
    rw [readRuns_symbol (by decide) hf hp (symbol_closing _), playFrom_cons rfl,
      ShuntingYard.add_closing_of_depth_eq_zero (by omega)]
    rfl

/-- The induction is on the runs, with one lemma for each form of a run. -/
theorem settled_of_reached {row : List (List Char)} (hrow : AreRuns row) :
    ∀ before place yard, Reached before row place yard →
      Settled source start before row place yard := by
  induction row with
  | nil => exact fun before place yard h => settled_nil h
  | cons run behind ih =>
    intro before place yard h
    replace ih := fun next after => ih hrow.tail (before ++ [run]) next after
    cases hrow.form with
    | blank hb => exact settled_blank hb h ih
    | illegal hb hf => exact settled_illegal hb hf
    | numeric hne hall =>
      obtain ⟨first, others, rfl⟩ := List.exists_cons_of_ne_nil hne
      exact settled_numeric hall h ih
    | letter hc => exact settled_letter hc h ih
    | name hl hne hall =>
      obtain ⟨first, others, rfl⟩ := List.exists_cons_of_ne_nil hne
      exact settled_name hl hall h ih
    | operation operator => exact settled_operation operator h ih
    | opening => exact settled_opening h ih
    | closing => exact settled_closing h ih

end Settling

theorem Settles.map {α β : Type} {whole : List (List Char)} {offence : Option Failure}
    {result : Except Failure α} (h : Settles whole offence result) (f : α → β) :
    Settles whole offence (result.map f) := by
  cases offence with
  | some failure =>
    rw [Settles] at h
    rw [h]
    rfl
  | none =>
    rw [Settles] at h ⊢
    split
    · rename_i hc
      rw [if_pos hc] at h
      obtain ⟨value, rfl⟩ := h
      exact ⟨f value, rfl⟩
    · rename_i hc
      rw [if_neg hc] at h
      rw [h]
      rfl

/-- A conversion is settled by the first offence of its runs. -/
theorem settles_convert {σ : Type} (source : Source σ) (text : String) (state : σ) :
    Settles (runs text.toList) (firstOffence? source state [] (runs text.toList))
      ((convert text).run source state).outcome := by
  rw [Dialogue.run_outcome, play_convert_eq]
  exact (settled_of_reached (areRuns_runs text.toList) [] .leading .empty ⟨nofun, rfl⟩).map Prod.fst

end Calculator
