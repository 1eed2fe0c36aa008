import Calculator.Bindings
import Calculator.Proofs.Conversion.Answers
import Calculator.Proofs.Number.Sign
import Calculator.Proofs.Yard.Groups

/-!
# Replacing a literal

A literal in a group, the same literal in parentheses and a variable of the same value
leave the same nodes. They differ in one place: a sign directly before a literal leaves
with it, but waits behind a parenthesis or a variable. Only where the sign would leave
next in any case is the difference lost again.
-/
namespace Calculator

open ShuntingYard

namespace ShuntingYard

variable {nodes : List Node} {stack : List Waiting} {functions : List NamedFunction} {value : Float}

theorem addAll_enclosed_literal :
    (of nodes stack functions).addAll [.opening, .operand (.literal value), .closing] =
      .ok (of (nodes ++ [.number value] ++ released functions) stack (functions.drop 1)) := by
  have hn : (Waiting.parenthesis :: stack).head? ≠ some .negation := nofun
  have hc : (of (nodes ++ [.number value] ++ released functions) (.parenthesis :: stack)
      (functions.drop 1)).add .closing = .ok _ := @add_closing _ _ [] _ List.not_mem_nil
  rw [List.filterMap_nil, accompanied_nil_left, List.append_nil] at hc
  rw [addAll_cons_of_eq add_opening, addAll_cons_of_eq (add_literal value hn),
    addAll_cons_of_eq hc]
  rfl

theorem add_answered_of_not_lt (h : ¬ value < 0) :
    (of nodes stack functions).add (.operand (.answered value)) =
      .ok (of (nodes ++ [.number value] ++ released functions) stack (functions.drop 1)) := by
  rw [add_answered, Value.nodes, if_neg h]

/-- A closing parenthesis lets a sign leave that is still there. -/
theorem add_closing_negation (node : Node) (below : List Waiting) :
    (of (nodes ++ [node, .negation]) below []).add .closing =
      (of (nodes ++ [node]) (.negation :: below) []).add .closing := by
  by_cases hp : .parenthesis ∈ below
  · obtain ⟨above, rest, rfl, ha⟩ := exists_innermost hp
    have hn : .parenthesis ∉ Waiting.negation :: above := by simp [ha]
    rw [add_closing ha, ← List.cons_append, add_closing hn]
    simp [Waiting.node?]
  · have hn : .parenthesis ∉ Waiting.negation :: below := by simp [hp]
    rw [add_closing_unopened hp, add_closing_unopened hn]

/-- So does the end. -/
theorem finish_negation (node : Node) (below : List Waiting) :
    (of (nodes ++ [node, .negation]) below []).finish =
      (of (nodes ++ [node]) (.negation :: below) []).finish := by
  by_cases hp : .parenthesis ∈ below
  · have hn : .parenthesis ∈ Waiting.negation :: below := List.mem_cons_of_mem _ hp
    rw [finish_unclosed hp, finish_unclosed hn]
  · have hn : .parenthesis ∉ Waiting.negation :: below := by simp [hp]
    rw [finish_of hp, finish_of hn]
    simp [Waiting.node?]

end ShuntingYard

variable {σ : Type} {source : Source σ}

/-! ## The yard before a literal -/

theorem ShuntingYard.take_append (yard : ShuntingYard) (symbols more : List Symbol) :
    yard.take source (symbols ++ more) =
      yard.take source symbols >>= fun next => next.take source more := by
  induction symbols generalizing yard with
  | nil => rfl
  | cons symbol symbols ih =>
    rw [List.cons_append, take, take, bind_assoc]
    congr 1
    funext mark
    rw [bind_assoc]
    congr 1
    funext next
    exact ih next

theorem Reading.playFrom_append (yard : ShuntingYard) (symbols more : List Symbol)
    (ending : Option Failure) :
    Reading.playFrom source yard ⟨symbols ++ more, ending⟩ =
      yard.take source symbols >>= fun next => Reading.playFrom source next ⟨more, ending⟩ := by
  rw [Reading.playFrom, take_append, bind_assoc]
  rfl

theorem ShuntingYard.take_agree {s t : σ} (h : source.Alike s t) (yard : ShuntingYard)
    (symbols : List Symbol) :
    Agree source ((yard.take source symbols).run s) ((yard.take source symbols).run t) := by
  induction symbols generalizing yard s t with
  | nil => exact .pure h yard
  | cons symbol symbols ih =>
    have hsymbol : Agree source ((symbol.resolve source).run s) ((symbol.resolve source).run t) := by
      cases symbol with
      | letter name =>
        rw [Symbol.resolve, map_eq_pure_bind]
        exact .bind (Dialogue.play_agree h (Conversion.askValue name)) fun value _ _ hst =>
          .pure hst (Mark.operand (Value.answered value))
      | number value => exact .pure h _
      | call function => exact .pure h _
      | sign => exact .pure h _
      | operation operator => exact .pure h _
      | opening => exact .pure h _
      | closing => exact .pure h _
    exact .bind hsymbol fun mark s t hst =>
      .bind (.ofOutcome hst (yard.add mark)) fun next s t hst => ih hst next

theorem Reading.playFrom_agree {s t : σ} (h : source.Alike s t) (yard : ShuntingYard)
    (reading : Reading) :
    Agree source ((reading.playFrom source yard).run s) ((reading.playFrom source yard).run t) :=
  .bind (yard.take_agree h reading.symbols) fun next _ _ hst =>
    .ofOutcome hst (next.conclude reading.ending)

/-- The top of the stack is a sign only directly behind that sign. -/
theorem head?_ne_negation {marks : List (Mark Operand)} {yard : ShuntingYard} {state after : σ}
    {stage : Stage} (ht : Stage.leading.through? marks = some stage) (hs : stage ≠ .complete)
    (hlast : marks.getLast? ≠ some .sign)
    (h : (ShuntingYard.empty.take source (marks.map Mark.symbol)).run state = .ok (yard, after)) :
    yard.stack.head? ≠ some .negation := by
  rcases List.eq_nil_or_concat' marks with rfl | ⟨front, mark, rfl⟩
  · cases h
    nofun
  · obtain ⟨between, -, hm⟩ := Stage.through?_of_append ht
    obtain ⟨next, ha, hn⟩ := Option.bind_eq_some_iff.mp hm
    cases hn
    have hstage := Stage.after?_eq_stage ha
    rw [List.map_append, ShuntingYard.take_append, Answering.run_bind_eq_ok_iff] at h
    obtain ⟨before, middle, -, h⟩ := h
    cases mark with
    | operand a => exact absurd hstage hs
    | closing => exact absurd hstage hs
    | sign => exact absurd List.getLast?_concat hlast
    | call function =>
      cases h
      nofun
    | opening =>
      cases h
      nofun
    | operation operator =>
      cases h
      nofun

/-- Only a variable has the source asked. -/
theorem Symbol.exists_names_of_resolve {symbol : Symbol} {mark : Mark Value} {state after : σ}
    (h : (symbol.resolve source).run state = .ok (mark, after)) :
    ∃ names, after = source.after names state := by
  cases symbol with
  | letter name =>
    rw [Symbol.resolve, Answering.run_map_eq_ok_iff] at h
    obtain ⟨value, hv, -⟩ := h
    exact ⟨[name], Source.state_of_value hv⟩
  | number value =>
    cases h
    exact ⟨[], rfl⟩
  | call function =>
    cases h
    exact ⟨[], rfl⟩
  | sign =>
    cases h
    exact ⟨[], rfl⟩
  | operation operator =>
    cases h
    exact ⟨[], rfl⟩
  | opening =>
    cases h
    exact ⟨[], rfl⟩
  | closing =>
    cases h
    exact ⟨[], rfl⟩

theorem ShuntingYard.exists_names_of_take {symbols : List Symbol} :
    ∀ {yard next : ShuntingYard} {state after : σ},
      (yard.take source symbols).run state = .ok (next, after) →
        ∃ names, after = source.after names state := by
  induction symbols with
  | nil =>
    intro yard next state after h
    cases h
    exact ⟨[], rfl⟩
  | cons symbol symbols ih =>
    intro yard next state after h
    rw [ShuntingYard.take, Answering.run_bind_eq_ok_iff] at h
    obtain ⟨mark, between, hm, h⟩ := h
    rw [Answering.run_bind_eq_ok_iff] at h
    obtain ⟨behind, last, ha, h⟩ := h
    rw [Answering.run_ofOutcome_eq_ok_iff] at ha
    obtain ⟨-, rfl⟩ := ha
    obtain ⟨names, rfl⟩ := Symbol.exists_names_of_resolve hm
    obtain ⟨more, rfl⟩ := ih h
    exact ⟨names ++ more, (Source.after_append source names more state).symm⟩

/-! ## Replacing -/

theorem playFrom_negation {nodes : List Node} (node : Node) (below : List Waiting)
    {after : List (Mark Operand)} (h : after = [] ∨ after.head? = some .closing) :
    Reading.playFrom source (of (nodes ++ [node, .negation]) below [])
        ⟨after.map Mark.symbol, none⟩ =
      Reading.playFrom source (of (nodes ++ [node]) (.negation :: below) [])
        ⟨after.map Mark.symbol, none⟩ := by
  rcases h with rfl | h
  · change Answering.ofOutcome (of (nodes ++ [node, .negation]) below []).finish = _
    rw [finish_negation]
    rfl
  · obtain ⟨rest, rfl⟩ := List.head?_eq_some_iff.mp h
    change (Answering.ofOutcome ((of (nodes ++ [node, .negation]) below []).add .closing) >>=
      fun next => next.take source (rest.map Mark.symbol)) >>= _ = _
    rw [add_closing_negation]
    rfl

/-- The yard behind a literal and behind what may stand for it. Either both are the same, or a sign
waits that leaves with the next mark or at the end. -/
theorem exists_replaced {yard : ShuntingYard} {after : List (Mark Operand)} {value : Float}
    (hv : ¬ value < 0)
    (h : yard.stack.head? ≠ some .negation ∨
      yard.functions = [] ∧ (after = [] ∨ after.head? = some .closing)) :
    ∃ old new, yard.add (.operand (.literal value)) = .ok old ∧
      yard.addAll [.opening, .operand (.literal value), .closing] = .ok new ∧
      yard.add (.operand (.answered value)) = .ok new ∧
      Reading.playFrom source old ⟨after.map Mark.symbol, none⟩ =
        Reading.playFrom source new ⟨after.map Mark.symbol, none⟩ := by
  rw [eq_of yard]
  by_cases hn : yard.stack.head? = some .negation
  · obtain ⟨hf, hafter⟩ := h.resolve_left fun hne => hne hn
    obtain ⟨below, hb⟩ := List.head?_eq_some_iff.mp hn
    rw [hb, hf]
    refine ⟨_, _, add_literal_negation value, addAll_enclosed_literal, add_answered_of_not_lt hv, ?_⟩
    have hr : released [] = [] := rfl
    rw [hr, List.append_nil, List.append_nil, List.drop_nil]
    exact playFrom_negation _ below hafter
  · exact ⟨_, _, add_literal value hn, addAll_enclosed_literal, add_answered_of_not_lt hv, rfl⟩

/-- A conversion is the same with other marks in place of one, if those leave as much in the yard
and an alike state behind. -/
theorem run_playFrom_replaced {before after new : List (Mark Operand)} {old : Mark Operand}
    {state : σ}
    (h : ∀ yard s,
      (ShuntingYard.empty.take source (before.map Mark.symbol)).run state = .ok (yard, s) →
      ∃ left right t, (yard.take source [old.symbol]).run s = .ok (left, s) ∧
        (yard.take source (new.map Mark.symbol)).run s = .ok (right, t) ∧ source.Alike t s ∧
        Reading.playFrom source left ⟨after.map Mark.symbol, none⟩ =
          Reading.playFrom source right ⟨after.map Mark.symbol, none⟩) :
    ((Reading.playFrom source .empty ⟨(before ++ new ++ after).map Mark.symbol, none⟩).run state).map
        Prod.fst =
      ((Reading.playFrom source .empty ⟨(before ++ old :: after).map Mark.symbol, none⟩).run
        state).map Prod.fst := by
  rw [List.append_assoc, List.map_append, List.map_append, List.map_append,
    Reading.playFrom_append, Reading.playFrom_append, StateT.run_bind, StateT.run_bind]
  cases hb : (ShuntingYard.empty.take source (before.map Mark.symbol)).run state with
  | error failure => rfl
  | ok p =>
    obtain ⟨yard, s⟩ := p
    obtain ⟨left, right, t, hold, hnew, hts, hrest⟩ := h yard s hb
    change ((Reading.playFrom source yard
        ⟨new.map Mark.symbol ++ after.map Mark.symbol, none⟩).run s).map _ =
      ((Reading.playFrom source yard ⟨[old.symbol] ++ after.map Mark.symbol, none⟩).run s).map _
    rw [Reading.playFrom_append, Reading.playFrom_append, StateT.run_bind,
      StateT.run_bind, hold, hnew]
    change ((Reading.playFrom source right ⟨after.map Mark.symbol, none⟩).run t).map _ =
      ((Reading.playFrom source left ⟨after.map Mark.symbol, none⟩).run s).map _
    rw [hrest]
    exact (Reading.playFrom_agree hts right _).map_fst

theorem run_convert_outcome {text : String} {marks : List (Mark Operand)} {state : σ}
    (hs : Spelling marks text.toList) {last : Stage}
    (ht : Stage.leading.through? marks = some last) :
    ((convert text).run source state).outcome =
      ((Reading.playFrom source .empty ⟨marks.map Mark.symbol, none⟩).run state).map Prod.fst := by
  rw [Dialogue.run_outcome, play_convert_eq, hs.readRuns_eq ht 0 .leading nofun (by decide)]

theorem run_calculate_outcome (expression : String) (state : σ) :
    ((calculate expression).run source state).outcome =
      ((convert expression).run source state).outcome.bind evaluate := by
  rw [Dialogue.run_outcome, Dialogue.run_outcome, play_calculate, StateT.run_bind]
  rcases ((convert expression).play source).run state with failure | ⟨nodes, after⟩
  · rfl
  · change (Except.map (·, after) (evaluate nodes)).map Prod.fst = evaluate nodes
    cases evaluate nodes <;> rfl

theorem Numeral.not_value_lt_zero (numeral : Numeral) : ¬ numeral.value < 0 := by
  obtain ⟨bits, hb, hv⟩ := Number.read?_of_isNumeric numeral.numeric numeral.read?_digits
  rw [hv]
  refine Number.not_lt_zero (Nat.lt_of_le_of_lt hb ?_)
  decide

/-- Marks of a group stay in order when others stand for an operand. -/
theorem through?_replaced {before after : List (Mark Operand)} (new : List (Mark Operand))
    {old : Operand}
    (h : Stage.leading.through? (before ++ .operand old :: after) = some .complete)
    (hnew : ∀ stage : Stage, stage ≠ .complete → stage.through? new = some .complete) :
    ∃ stage, Stage.leading.through? before = some stage ∧ stage ≠ .complete ∧
      Stage.leading.through? (before ++ new ++ after) = some .complete := by
  obtain ⟨stage, hb, h⟩ := Stage.through?_of_append h
  obtain ⟨next, ha, h⟩ := Option.bind_eq_some_iff.mp h
  have hstage : stage ≠ .complete := by
    rintro rfl
    cases ha
  have hnext : next = .complete := Stage.after?_eq_stage ha
  refine ⟨stage, hb, hstage, ?_⟩
  rw [List.append_assoc, Stage.through?_append_of_eq hb,
    Stage.through?_append_of_eq (hnew stage hstage), ← hnext]
  exact hnext ▸ h

/-- No function waits for its argument behind some marks. -/
def NoneWaits (source : Source σ) (state : σ) (before : List (Mark Operand)) : Prop :=
  ∀ yard after, (ShuntingYard.empty.take source (before.map Mark.symbol)).run state =
    .ok (yard, after) → yard.functions = []

/-- What a sign directly before a literal does not change: the literal has to stand behind another
mark, or to be all that the sign is for, with no function waiting for it. -/
def Replaceable (source : Source σ) (state : σ) (before after : List (Mark Operand)) : Prop :=
  before.getLast? ≠ some .sign ∨
    NoneWaits source state before ∧ (after = [] ∨ after.head? = some .closing)

/-- The marks of a literal in parentheses. -/
def enclosed (numeral : Numeral) : List (Mark Operand) :=
  [.opening, .operand (.numeral numeral), .closing]

theorem through?_enclosed_numeral (numeral : Numeral) (stage : Stage) (hs : stage ≠ .complete) :
    stage.through? (enclosed numeral) = some .complete := by
  have hm : Stage.leading.through? [Mark.operand (Operand.numeral numeral)] = some .complete := rfl
  exact Stage.through?_enclosed rfl hs hm

section Replaced

variable {before after : List (Mark Operand)} {state s : σ} {yard left right : ShuntingYard}

theorem take_number {value : Float} (h : yard.add (.operand (.literal value)) = .ok left) :
    (yard.take source [.number value]).run s = .ok (left, s) := by
  have hm : ([Symbol.number value].mapM (Symbol.resolve source)).run s =
      .ok ([.operand (.literal value)], s) := rfl
  rw [ShuntingYard.take_of_mapM hm, addAll_cons_of_eq h]
  rfl

theorem take_enclosed {numeral : Numeral}
    (h : yard.addAll [.opening, .operand (.literal numeral.value), .closing] = .ok right) :
    (yard.take source ((enclosed numeral).map Mark.symbol)).run s = .ok (right, s) := by
  have hm : (((enclosed numeral).map Mark.symbol).mapM (Symbol.resolve source)).run s =
      .ok ([.opening, .operand (.literal numeral.value), .closing], s) := rfl
  rw [ShuntingYard.take_of_mapM hm, h]
  rfl

theorem take_letter {name : Char} {value : Float} {next : σ}
    (h : yard.add (.operand (.answered value)) = .ok right)
    (hv : (source.value name).run s = .ok (value, next)) :
    (yard.take source [.letter name]).run s = .ok (right, next) := by
  have hm : ([Symbol.letter name].mapM (Symbol.resolve source)).run s =
      .ok ([.operand (.answered value)], next) := by
    rw [List.mapM_cons, Answering.run_bind_eq_ok_iff]
    refine ⟨.operand (.answered value), next, ?_, rfl⟩
    rw [Symbol.resolve, Answering.run_map_eq_ok_iff]
    exact ⟨value, hv, rfl⟩
  rw [ShuntingYard.take_of_mapM hm, addAll_cons_of_eq h]
  rfl

theorem Replaceable.exists_replaced (h : Replaceable source state before after) (numeral : Numeral)
    {stage : Stage} (hb : Stage.leading.through? before = some stage) (hs : stage ≠ .complete)
    (ht : (ShuntingYard.empty.take source (before.map Mark.symbol)).run state = .ok (yard, s)) :
    ∃ old new, yard.add (.operand (.literal numeral.value)) = .ok old ∧
      yard.addAll [.opening, .operand (.literal numeral.value), .closing] = .ok new ∧
      yard.add (.operand (.answered numeral.value)) = .ok new ∧
      Reading.playFrom source old ⟨after.map Mark.symbol, none⟩ =
        Reading.playFrom source new ⟨after.map Mark.symbol, none⟩ := by
  refine Calculator.exists_replaced numeral.not_value_lt_zero ?_
  rcases h with hlast | ⟨hnone, hafter⟩
  · exact .inl (head?_ne_negation hb hs hlast ht)
  · exact .inr ⟨hnone yard s ht, hafter⟩

theorem run_playFrom_enclosed (h : Replaceable source state before after) (numeral : Numeral)
    {stage : Stage} (hb : Stage.leading.through? before = some stage) (hs : stage ≠ .complete) :
    ((Reading.playFrom source .empty
        ⟨(before ++ enclosed numeral ++ after).map Mark.symbol, none⟩).run state).map Prod.fst =
      ((Reading.playFrom source .empty
        ⟨(before ++ .operand (.numeral numeral) :: after).map Mark.symbol, none⟩).run state).map
          Prod.fst := by
  refine run_playFrom_replaced fun yard s ht => ?_
  obtain ⟨old, new, hold, hnew, -, hrest⟩ := h.exists_replaced numeral hb hs ht
  exact ⟨old, new, s, take_number hold, take_enclosed hnew, Source.Alike.refl source s, hrest⟩

theorem run_playFrom_letter (h : Replaceable source state before after) (numeral : Numeral)
    {stage : Stage} (hb : Stage.leading.through? before = some stage) (hs : stage ≠ .complete)
    {letter : Variable} (hbinds : source.Binds letter.name numeral.value state) :
    ((Reading.playFrom source .empty
        ⟨(before ++ [Mark.operand (Operand.letter letter)] ++ after).map Mark.symbol, none⟩).run
          state).map Prod.fst =
      ((Reading.playFrom source .empty
        ⟨(before ++ .operand (.numeral numeral) :: after).map Mark.symbol, none⟩).run state).map
          Prod.fst := by
  refine run_playFrom_replaced fun yard s ht => ?_
  obtain ⟨old, new, hold, -, hnew, hrest⟩ := h.exists_replaced numeral hb hs ht
  obtain ⟨names, rfl⟩ := ShuntingYard.exists_names_of_take ht
  obtain ⟨next, hv, halike⟩ := hbinds.run_value names
  have hletter : (yard.take source ([Mark.operand (.letter letter)].map Mark.symbol)).run
      (source.after names state) = .ok (new, next) := take_letter hnew hv
  exact ⟨old, new, next, take_number hold, hletter, halike, hrest⟩

end Replaced

/-- A replaceable literal may be put in parentheses or be replaced by a variable of its value, in
every spelling of its group; the calculation comes to the same. -/
theorem calculate_replaced_literal (group : Group Operand) (before after : List (Mark Operand))
    (numeral : Numeral) (hgroup : group.marks = before ++ .operand (.numeral numeral) :: after)
    (source : Source σ) (state : σ) (hplace : Replaceable source state before after)
    (front rest : List Char) (hfront : Spelling before front) (hrest : Spelling after rest) :
    ((calculate (String.ofList (front ++ ('(' :: numeral.digits ++ [')']) ++ rest))).run source
        state).outcome =
      ((calculate (String.ofList (front ++ numeral.digits ++ rest))).run source state).outcome ∧
    ∀ letter : Variable, source.Binds letter.name numeral.value state →
      ((calculate (String.ofList (front ++ [letter.name] ++ rest))).run source state).outcome =
        ((calculate (String.ofList (front ++ numeral.digits ++ rest))).run source state).outcome := by
  have hthrough := group.through?_marks
  rw [hgroup] at hthrough
  have hold : Spelling (before ++ .operand (.numeral numeral) :: after)
      (String.ofList (front ++ numeral.digits ++ rest)).toList := by
    rw [String.toList_ofList, List.append_assoc]
    exact hfront.append (.mark (.operand (.numeral numeral)) hrest)
  constructor
  · obtain ⟨stage, hb, hs, ht⟩ :=
      through?_replaced (enclosed numeral) hthrough (through?_enclosed_numeral numeral)
    have hnew : Spelling (before ++ enclosed numeral ++ after)
        (String.ofList (front ++ ('(' :: numeral.digits ++ [')']) ++ rest)).toList := by
      rw [String.toList_ofList]
      refine (hfront.append ?_).append hrest
      exact .mark .opening (.mark (.operand (.numeral numeral)) (.singleton .closing))
    rw [run_calculate_outcome, run_calculate_outcome, run_convert_outcome hnew ht,
      run_convert_outcome hold hthrough, run_playFrom_enclosed hplace numeral hb hs]
  · intro letter hbinds
    obtain ⟨stage, hb, hs, ht⟩ := through?_replaced [.operand (.letter letter)] hthrough
      fun stage hstage => (Primary.operand (Operand.letter letter)).through?_marks hstage
    have hnew : Spelling (before ++ [.operand (.letter letter)] ++ after)
        (String.ofList (front ++ [letter.name] ++ rest)).toList := by
      rw [String.toList_ofList]
      exact (hfront.append (.singleton (.operand (.letter letter)))).append hrest
    rw [run_calculate_outcome, run_calculate_outcome, run_convert_outcome hnew ht,
      run_convert_outcome hold hthrough, run_playFrom_letter hplace numeral hb hs hbinds]

theorem binds_x_two : (Bindings.empty.set 'x' 2).source.Binds 'x' Numeral.two.value () := by
  intro names
  have ha : ((Bindings.empty.set 'x' 2).source.answer 'x' ()).1 = .ok (Number.text 2) := rfl
  exact ⟨Number.text 2, ha, by decide +kernel, Source.Alike.refl _ _⟩

theorem calculate_twos_replaced :
    let source := (Bindings.empty.set 'x' 2).source
    (((calculate "(2)*3").run source ()).outcome = ((calculate "2*3").run source ()).outcome ∧
      ((calculate "x*3").run source ()).outcome = ((calculate "2*3").run source ()).outcome) ∧
    ((calculate "(3+sin(cos(3)))*(-(2))").run source ()).outcome =
      ((calculate "(3+sin(cos(3)))*(-2)").run source ()).outcome ∧
    ((calculate "(3+sin(cos(3)))*(-x)").run source ()).outcome =
      ((calculate "(3+sin(cos(3)))*(-2)").run source ()).outcome := by
  intro source
  constructor
  · let group : Group Operand :=
      .mk false (.operand (.numeral .two)) (.link .nil .multiplication (.operand (.numeral .three)))
    have hplace : Replaceable source () [] [.operation .multiplication, .operand (.numeral .three)] :=
      .inl nofun
    have hrest : Spelling [.operation .multiplication, .operand (.numeral .three)] ['*', '3'] :=
      .mark (.operation .multiplication) (.singleton (.operand (.numeral .three)))
    have h := calculate_replaced_literal group [] _ .two rfl source () hplace [] _ .nil hrest
    exact ⟨h.1, h.2 .x binds_x_two⟩
  · let sum : Group Operand :=
      .mk false (.operand (.numeral .three)) (.link .nil .addition (.call .sine
        (.mk false (.call .cosine (.mk false (.operand (.numeral .three)) .nil)) .nil)))
    let group : Group Operand :=
      .mk false (.enclosed sum) (.link .nil .multiplication
        (.enclosed (.mk true (.operand (.numeral .two)) .nil)))
    let before : List (Mark Operand) :=
      [.opening, .operand (.numeral .three), .operation .addition, .call .sine, .call .cosine,
        .operand (.numeral .three), .closing, .closing, .closing, .operation .multiplication,
        .opening, .sign]
    -- The sine leaves with the sum, so nothing waits for the literal behind the sign.
    have hnone : NoneWaits source () before := by
      intro yard after h
      cases h
      rfl
    have hplace : Replaceable source () before [.closing] := .inr ⟨hnone, .inr rfl⟩
    have hfront : Spelling before "(3+sin(cos(3)))*(-".toList :=
      .mark .opening (.mark (.operand (.numeral .three)) (.mark (.operation .addition)
        (.mark (.call .sine) (.mark (.call .cosine) (.mark (.operand (.numeral .three))
          (.mark .closing (.mark .closing (.mark .closing (.mark (.operation .multiplication)
            (.mark .opening (.singleton .sign)))))))))))
    have h := calculate_replaced_literal group before _ .two rfl source () hplace _ _ hfront
      (.singleton .closing)
    exact ⟨h.1, h.2 .x binds_x_two⟩

/-- A sign takes the literal directly behind it along and leaves anything else to its chain. -/
theorem calculate_literal_behind_sign_replaced :
    (∃ group : Group Operand, Spelling group.marks "-2+3".toList ∧
      group.marks = [.sign] ++ .operand (.numeral .two) ::
        [.operation .addition, .operand (.numeral .three)]) ∧
    (Bindings.empty.set 'x' 2).source.Binds 'x' Numeral.two.value () ∧
    ((calculate "-2+3").run (Bindings.empty.set 'x' 2).source ()).outcome = .ok 1 ∧
    ((calculate "-(2)+3").run (Bindings.empty.set 'x' 2).source ()).outcome = .ok (-5) ∧
    ((calculate "-x+3").run (Bindings.empty.set 'x' 2).source ()).outcome = .ok (-5) := by
  refine ⟨?_, binds_x_two, by decide +kernel, by decide +kernel, by decide +kernel⟩
  refine ⟨.mk true (.operand (.numeral .two)) (.link .nil .addition (.operand (.numeral .three))),
    ?_, rfl⟩
  exact .mark .sign (.mark (.operand (.numeral .two)) (.mark (.operation .addition)
    (.singleton (.operand (.numeral .three)))))

end Calculator
