import Calculator.Proofs.Conversion.Inquiry
import Calculator.Proofs.Conversion.RunStep
import Calculator.Proofs.Yard.Unnamed

/-!
# Expressions without their functions

If blanks replace the name of every call, its parenthesis is read as one of its own. The
conversion asks the same questions and fails in the same way, and the postfix order is
the old one without its functions. Nothing is required of the text.
-/
namespace Calculator

open Text TokenKind

/-- The runs with a blank for each letter of a name that an opening parenthesis follows. -/
def blankNames : List (List Char) → List (List Char)
  | [] => []
  | run :: behind =>
    if (NamedFunction.ofText? run).isSome ∧ behind.head? = some ['('] then
      run.map (fun _ => [' ']) ++ blankNames behind
    else run :: blankNames behind

/-- The text with a blank for each letter of the name of a call. -/
def withoutNames (text : String) : String :=
  String.ofList (blankNames (runs text.toList)).flatten

section Blanks

variable {run : List Char} {behind row : List (List Char)}

theorem blankNames_named (hn : (NamedFunction.ofText? run).isSome = true)
    (hb : behind.head? = some ['(']) :
    blankNames (run :: behind) = run.map (fun _ => [' ']) ++ blankNames behind := by
  rw [blankNames, if_pos ⟨hn, hb⟩]

theorem blankNames_other
    (h : ¬ ((NamedFunction.ofText? run).isSome = true ∧ behind.head? = some ['('])) :
    blankNames (run :: behind) = run :: blankNames behind := by
  rw [blankNames, if_neg h]

theorem isBlank_space : isBlank ' ' = true := by decide

theorem head?_blankNames_eq_iff :
    (blankNames row).head? = some ['('] ↔ row.head? = some ['('] := by
  cases row with
  | nil => rfl
  | cons run behind =>
    by_cases h : (NamedFunction.ofText? run).isSome = true ∧ behind.head? = some ['(']
    · obtain ⟨function, hf⟩ := Option.isSome_iff_exists.mp h.1
      rw [NamedFunction.ofText?_eq_some_iff] at hf
      subst hf
      rw [blankNames_named h.1 h.2]
      cases function <;> simp [NamedFunction.name]
    · rw [blankNames_other h]
      rfl

/-- The first character stays or becomes a blank. -/
theorem head?_flatten_blankNames (h : AreRuns row) :
    ∀ c ∈ (blankNames row).flatten.head?, c ∈ row.flatten.head? ∨ c = ' ' := by
  intro c hc
  cases row with
  | nil => exact .inl hc
  | cons run behind =>
    obtain ⟨first, others, rfl⟩ := List.exists_cons_of_ne_nil h.ne_nil
    by_cases hn : (NamedFunction.ofText? (first :: others)).isSome = true ∧
        behind.head? = some ['(']
    · rw [blankNames_named hn.1 hn.2] at hc
      exact .inr (Option.some.inj hc).symm
    · rw [blankNames_other hn] at hc
      exact .inl hc

theorem runs_blanked_append (letters text : List Char) :
    runs ((letters.map fun _ => [' ']).flatten ++ text) =
      (letters.map fun _ => [' ']) ++ runs text := by
  have hblank : ∀ c ∈ letters.map fun _ => ' ', isBlank c = true := by
    intro c hc
    obtain ⟨_, -, rfl⟩ := List.mem_map.mp hc
    exact isBlank_space
  have hflatten : (letters.map fun _ => [' ']).flatten = letters.map fun _ => ' ' := by
    rw [← List.flatMap_def, List.map_eq_flatMap]
  rw [hflatten, runs_blanks_append hblank, List.map_map]
  rfl

/-- The runs of the text without names are the runs with blanks for names. -/
theorem areRuns_blankNames (h : AreRuns row) : AreRuns (blankNames row) := by
  induction row with
  | nil => rfl
  | cons run behind ih =>
    have hbehind : runs (blankNames behind).flatten = blankNames behind := ih h.tail
    by_cases hn : (NamedFunction.ofText? run).isSome = true ∧ behind.head? = some ['(']
    · rw [blankNames_named hn.1 hn.2, AreRuns, List.flatten_append, runs_blanked_append, hbehind]
    · have hrun : AreRuns [run] := @AreRuns.left [run] behind h
      rw [AreRuns, List.flatten_singleton] at hrun
      rw [blankNames_other hn, AreRuns, List.flatten_cons, runs_append, hrun, hbehind]
      · rfl
      · intro a ha c hc
        rcases head?_flatten_blankNames h.tail c hc with hc | rfl
        · exact h.seam a ha c hc
        · exact joined_of_alone_right (alone_of_isBlank isBlank_space)

theorem runs_withoutNames (text : String) :
    runs (withoutNames text).toList = blankNames (runs text.toList) := by
  rw [withoutNames, String.toList_ofList]
  exact areRuns_blankNames (areRuns_runs text.toList)

end Blanks

/-! ## The reading without names -/

/-- The symbol with the name of a call left out. -/
def Symbol.unnamed : Symbol → Symbol
  | .call _ => .opening
  | symbol => symbol

def Reading.unnamed (reading : Reading) : Reading :=
  { reading with symbols := reading.symbols.map Symbol.unnamed }

theorem Reading.unnamed_prepend (symbols : List Symbol) (reading : Reading) :
    (reading.prepend symbols).unnamed = reading.unnamed.prepend (symbols.map Symbol.unnamed) := by
  simp only [prepend, unnamed, List.map_append]

section Reading

variable {place next : Place} {position : Nat} {opens : Bool} {run : List Char}
  {symbols : List Symbol} {row : List (List Char)}

theorem readRuns_blanks_append (place : Place) (letters : List Char) :
    ∀ position, readRuns place position ((letters.map fun _ => [' ']) ++ row) =
      readRuns place (position + letters.length) row := by
  induction letters with
  | nil => exact fun _ => rfl
  | cons letter letters ih =>
    intro position
    rw [List.map_cons, List.cons_append, readRuns_blank isBlank_space, ih, List.length_cons,
      Nat.add_assoc, Nat.add_comm 1]

/-- Only the name of a call reads as a call. -/
theorem map_unnamed_of_readRun (h : readRun place position opens run = .ok (symbols, next))
    (hplace : place ≠ .behindName)
    (hno : ¬ ((NamedFunction.ofText? run).isSome = true ∧ opens = true)) :
    symbols.map Symbol.unnamed = symbols ∧ next ≠ .behindName := by
  obtain ⟨rfl, rfl, rfl⟩ | ⟨first, others, rfl, ⟨-, rfl, rfl⟩ | ⟨kind, -, -, h'⟩⟩ := readRun_cases h
  · exact ⟨rfl, hplace⟩
  · exact ⟨rfl, hplace⟩
  · obtain ⟨hp, -, -⟩ | ⟨-, symbol, hs, rfl, rfl⟩ := h'
    · exact absurd hp hplace
    · cases symbol with
      | call function =>
        obtain ⟨ho, hf⟩ := Lexeme.opens_of_symbol_eq_call hs
        rw [← NamedFunction.ofText?_eq_some_iff] at hf
        exact absurd ⟨Option.isSome_of_eq_some hf, ho⟩ hno
      | _ => exact ⟨rfl, nofun⟩

theorem readRun_name (function : NamedFunction) (hp : place ≠ .behindName) :
    readRun place position true function.name = .ok ([.call function], .behindName) := by
  have hall : function.name.all isAlphabetic = true := by cases function <;> decide
  rw [List.all_eq_true] at hall
  have hne : function.name ≠ [] := by cases function <;> decide
  obtain ⟨first, others, hf⟩ := List.exists_cons_of_ne_nil hne
  have hk : ofFirst? first = some .identifier :=
    ofFirst?_of_isAlphabetic (hall first (by rw [hf]; exact List.mem_cons_self))
  have hs : Lexeme.symbol ⟨⟨.identifier, function.name, position⟩, true⟩ (place = .leading) =
      .ok (.call function) := @symbol_call [['(']] position _ function rfl
  rw [hf] at hs ⊢
  exact readRun_of_symbol (not_isBlank_of_admits (ofFirst?_eq_some_iff.mp hk)) hk hp hs

theorem readRun_opening (hp : place ≠ .behindName) :
    readRun place position opens ['('] = .ok ([.opening], .leading) := by
  have hf : ofFirst? '(' = some .punctuation := by decide
  exact readRun_of_symbol (by decide) hf hp rfl

/-- The induction is on the runs. Behind a name the parenthesis is still to come, which is a symbol
of its own without the name. -/
theorem readRuns_blankNames (hrow : AreRuns row) : ∀ {place other : Place} (position : Nat),
    (place = .behindName → row.head? = some ['('] ∧ other ≠ .behindName) →
    (place ≠ .behindName → other = place) →
      readRuns other position (blankNames row) = (readRuns place position row).unnamed.prepend
        (if place = .behindName then [.opening] else []) := by
  induction row with
  | nil =>
    intro place other position hbehind hsame
    have hp : place ≠ .behindName := fun hp => by cases (hbehind hp).1
    rw [if_neg hp]
    rfl
  | cons run behind ih =>
    intro place other position hbehind hsame
    by_cases hn : (NamedFunction.ofText? run).isSome = true ∧ behind.head? = some ['(']
    · -- A name: its blanks change nothing but the position.
      obtain ⟨function, hf⟩ := Option.isSome_iff_exists.mp hn.1
      rw [NamedFunction.ofText?_eq_some_iff] at hf
      have hp : place ≠ .behindName := by
        intro hp
        have hrun : run = ['('] := Option.some.inj (hbehind hp).1
        rw [hf] at hrun
        exact name_ne_singleton function _ hrun
      have ho : other ≠ .behindName := by rwa [hsame hp]
      have hopens : decide (behind.head? = some ['(']) = true := decide_eq_true hn.2
      rw [blankNames_named hn.1 hn.2, readRuns_blanks_append, readRuns_cons hrow, hopens, hf,
        readRun_name function hp, if_neg hp]
      dsimp only
      rw [ih hrow.tail _ (fun _ => ⟨hn.2, ho⟩) (fun h => absurd rfl h), if_pos rfl,
        Reading.unnamed_prepend]
      rfl
    · have hrow' : AreRuns (run :: blankNames behind) := by
        have hr := areRuns_blankNames hrow
        rwa [blankNames_other hn] at hr
      have hopens : decide ((blankNames behind).head? = some ['(']) =
          decide (behind.head? = some ['(']) := decide_eq_decide.mpr head?_blankNames_eq_iff
      rw [blankNames_other hn, readRuns_cons hrow', readRuns_cons hrow, hopens]
      by_cases hp : place = .behindName
      · obtain ⟨hhead, ho⟩ := hbehind hp
        have hrun : run = ['('] := Option.some.inj hhead
        have hpass : readRun .behindName position (behind.head? = some ['(']) ['('] =
          .ok ([], .leading) := rfl
        rw [hp, hrun, readRun_opening ho, hpass, if_pos rfl]
        dsimp only
        rw [ih hrow.tail _ (fun h => Place.noConfusion h) (fun _ => rfl)]
        rfl
      · rw [hsame hp, if_neg hp]
        cases hr : readRun place position (behind.head? = some ['(']) run with
        | error failure => rfl
        | ok contribution =>
          obtain ⟨symbols, next⟩ := contribution
          obtain ⟨hsymbols, hnext⟩ := map_unnamed_of_readRun hr hp
            fun h => hn ⟨h.1, of_decide_eq_true h.2⟩
          dsimp only
          rw [ih hrow.tail _ (fun h => absurd h hnext) (fun _ => rfl), if_neg hnext,
            Reading.unnamed_prepend, hsymbols]
          rfl

end Reading

/-! ## The conversion without names -/

theorem Symbol.inquire_unnamed (symbol : Symbol) :
    symbol.unnamed.inquire = Mark.unnamed <$> symbol.inquire := by
  cases symbol with
  | letter name =>
    change _ = Mark.unnamed <$> ((fun value => Mark.operand (Value.answered value)) <$> _)
    rw [Functor.map_map]
    rfl
  | _ => rfl

theorem ShuntingYard.inquire_unnamed (symbols : List Symbol) : ∀ yard : ShuntingYard,
    yard.unnamed.inquire (symbols.map Symbol.unnamed) = unnamed <$> yard.inquire symbols := by
  induction symbols with
  | nil => exact fun _ => rfl
  | cons symbol symbols ih =>
    intro yard
    rw [List.map_cons, inquire, inquire, Symbol.inquire_unnamed, bind_map_left, map_bind]
    congr 1
    funext mark
    rw [add_unnamed]
    cases yard.add mark with
    | error failure => rfl
    | ok after => exact ih after

theorem ShuntingYard.conclude_unnamed (yard : ShuntingYard) (ending : Option Failure) :
    yard.unnamed.conclude ending = (yard.conclude ending).map withoutCalls := by
  cases ending with
  | some failure => rfl
  | none => exact yard.finish_unnamed

/-- Without notes the two conversions are one dialogue, up to the functions in its result. -/
theorem unnoted_convert_withoutNames (text : String) :
    (convert (withoutNames text)).unnoted = withoutCalls <$> (convert text).unnoted := by
  have hreading : readRuns .leading 0 (blankNames (runs text.toList)) =
      (readRuns .leading 0 (runs text.toList)).unnamed :=
    readRuns_blankNames (areRuns_runs text.toList) 0 (fun h => Place.noConfusion h) fun _ => rfl
  rw [unnoted_convert, unnoted_convert, runs_withoutNames, hreading, Reading.inquireFrom,
    Reading.inquireFrom, map_bind, ← ShuntingYard.unnamed_empty]
  change ShuntingYard.inquire _ (List.map _ _) >>= _ = _
  rw [ShuntingYard.inquire_unnamed, bind_map_left]
  congr 1
  funext yard
  rw [ShuntingYard.conclude_unnamed]
  exact (Dialogue.map_done _ _).symm

/-- Names of functions have no part in the order of anything else: without them a conversion asks
for the same variables, leaves the source in the same state and comes to the same end, apart from
the functions. -/
theorem convert_withoutNames {σ : Type} (source : Source σ) (state : σ) (text : String) :
    let run := (convert text).run source state
    let other := (convert (withoutNames text)).run source state
    other.requests = run.requests ∧ other.state = run.state ∧
      other.outcome = run.outcome.map withoutCalls := by
  obtain ⟨hr, ho, hs⟩ := (convert text).run_unnoted source state
  obtain ⟨hr', ho', hs'⟩ := (convert (withoutNames text)).run_unnoted source state
  rw [unnoted_convert_withoutNames, Dialogue.run_map] at hr' ho' hs'
  refine ⟨hr'.trans hr.symm, hs'.trans hs.symm, ho'.trans ?_⟩
  rw [ho]
  rfl

end Calculator
