import Calculator.Proofs.Conversion.Offence

/-!
# What a conversion accepts

A text is acceptable if its characters, numerals, names, variables and parentheses are,
each for itself. A conversion has a result for the acceptable texts and for no others.
Every other text fails for its leftmost offence, or for the parenthesis that it leaves
open.
-/
namespace Calculator

open Text TokenKind

variable {σ : Type} {source : Source σ} {start : σ} {before row : List (List Char)}

theorem firstOffence?_eq_none_iff : firstOffence? source start before row = none ↔
    ∀ front run behind, row = front ++ run :: behind →
      offence? source start (before ++ front) run behind = none := by
  induction row generalizing before with
  | nil =>
    refine ⟨fun _ front run behind h => ?_, fun _ => rfl⟩
    exact absurd h.symm (List.append_ne_nil_of_right_ne_nil _ (List.cons_ne_nil _ _))
  | cons first rest ih =>
    rw [firstOffence?, Option.or_eq_none_iff, ih]
    constructor
    · rintro ⟨hfirst, hrest⟩ front run behind h
      cases front with
      | nil =>
        obtain ⟨rfl, rfl⟩ := List.cons.inj h
        rw [List.append_nil]
        exact hfirst
      | cons other front =>
        obtain ⟨rfl, hr⟩ := List.cons.inj h
        have ho := hrest front run behind hr
        rwa [List.append_assoc] at ho
    · intro h
      refine ⟨?_, fun front run behind hr => ?_⟩
      · have ho := h [] first rest rfl
        rwa [List.append_nil] at ho
      · have ho := h (first :: front) run behind (by rw [hr]; rfl)
        rw [List.append_assoc]
        exact ho

theorem firstOffence?_eq_some_iff {failure : Failure} :
    firstOffence? source start before row = some failure ↔
      ∃ front run behind, row = front ++ run :: behind ∧
        offence? source start (before ++ front) run behind = some failure ∧
        ∀ earlier other between, front = earlier ++ other :: between →
          offence? source start (before ++ earlier) other (between ++ run :: behind) = none := by
  induction row generalizing before with
  | nil =>
    refine ⟨nofun, ?_⟩
    rintro ⟨front, run, behind, h, -⟩
    exact absurd h.symm (List.append_ne_nil_of_right_ne_nil _ (List.cons_ne_nil _ _))
  | cons first rest ih =>
    rw [firstOffence?, Option.or_eq_some_iff, ih]
    constructor
    · rintro (h | ⟨hfirst, front, run, behind, rfl, ho, hnone⟩)
      · refine ⟨[], first, rest, rfl, by rwa [List.append_nil], ?_⟩
        intro earlier other between he
        exact absurd he.symm (List.append_ne_nil_of_right_ne_nil _ (List.cons_ne_nil _ _))
      · refine ⟨first :: front, run, behind, rfl, by rwa [List.append_assoc] at ho, ?_⟩
        intro earlier other between he
        cases earlier with
        | nil =>
          obtain ⟨rfl, rfl⟩ := List.cons.inj he
          rw [List.append_nil]
          exact hfirst
        | cons head earlier =>
          obtain ⟨rfl, hr⟩ := List.cons.inj he
          have hn := hnone earlier other between hr
          rwa [List.append_assoc] at hn
    · rintro ⟨front, run, behind, h, ho, hnone⟩
      cases front with
      | nil =>
        obtain ⟨rfl, rfl⟩ := List.cons.inj h
        rw [List.append_nil] at ho
        exact .inl ho
      | cons head front =>
        obtain ⟨rfl, rfl⟩ := List.cons.inj h
        have hfirst := hnone [] first front rfl
        rw [List.append_nil] at hfirst
        refine .inr ⟨hfirst, front, run, behind, rfl, by rwa [List.append_assoc], ?_⟩
        intro earlier other between he
        have hn := hnone (first :: earlier) other between (by rw [he]; rfl)
        rw [List.append_assoc]
        exact hn

/-- The failure of the leftmost run that offends. -/
def LeftmostOffence (source : Source σ) (start : σ) (text : List Char) (failure : Failure) : Prop :=
  ∃ before run behind, runs text = before ++ run :: behind ∧
    offence? source start before run behind = some failure ∧
    ∀ earlier other between, before = earlier ++ other :: between →
      offence? source start earlier other (between ++ run :: behind) = none

theorem leftmostOffence_iff {text : List Char} {failure : Failure} :
    LeftmostOffence source start text failure ↔
      firstOffence? source start [] (runs text) = some failure := by
  rw [firstOffence?_eq_some_iff]
  rfl

/-- A text that can be converted, if a source in this state answers for its variables. -/
structure Acceptable (source : Source σ) (start : σ) (text : List Char) : Prop where
  /-- Every character has a class. -/
  characters : ∀ c ∈ text, isBlank c ∨ c.isDigit ∨ c = '.' ∨ isAlphabetic c ∨
    (∃ operator : Operator, c = operator.symbol) ∨ c = '(' ∨ c = ')'
  /-- Digits and points have at least one digit and at most one point. -/
  numerals : ∀ run ∈ runs text, (∀ c ∈ run, isNumeric c) →
    (∃ c ∈ run, c.isDigit) ∧ run.count '.' ≤ 1
  /-- Two or more letters are the name of a function, directly before a parenthesis. -/
  names : ∀ before run behind, runs text = before ++ run :: behind →
    (∀ c ∈ run, isAlphabetic c) → 2 ≤ run.length →
      (∃ function : NamedFunction, run = function.name) ∧ behind.flatten.head? = some '('
  /-- The source answers for every single letter with a numeral, blanks around it aside. -/
  answers : ∀ before name behind, runs text = before ++ [name] :: behind → isAlphabetic name →
    ∃ answer, (source.answer name (source.after (loneLetters before) start)).1 = .ok answer ∧
      (Number.read? (trim answer.toList)).isSome
  /-- No closing parenthesis lacks its partner. -/
  nesting : ∀ front, front <+: text → front.count ')' ≤ front.count '('
  /-- No opening parenthesis lacks its partner. -/
  balance : text.count '(' = text.count ')'

/-! ## An acceptable text has no offence -/

variable {text : List Char}

theorem count_before {c : Char} (h : alone c = true) {before behind : List (List Char)}
    {run : List Char} (hr : runs text = before ++ run :: behind) :
    before.count [c] = before.flatten.count c := by
  have hrow := areRuns_runs text
  rw [hr] at hrow
  exact (hrow.left.count_flatten h).symm

theorem prefix_of_runs {before behind : List (List Char)} {run : List Char}
    (hr : runs text = before ++ run :: behind) : before.flatten ++ run <+: text := by
  refine ⟨behind.flatten, ?_⟩
  rw [← flatten_runs text, hr, List.flatten_append, List.flatten_cons, List.append_assoc]

/-- Every closing run has its partner before it, or some front of the text has too many. -/
theorem nesting_iff : (∀ front, front <+: text → front.count ')' ≤ front.count '(') ↔
    ∀ before behind, runs text = before ++ [')'] :: behind →
      before.count [')'] < before.count ['('] := by
  constructor
  · intro h before behind hr
    have hf := h _ (prefix_of_runs hr)
    rw [count_before alone_opening hr, count_before alone_closing hr]
    simp only [List.count_append] at hf
    simp at hf
    omega
  · intro h front hfront
    induction front using List.reverseRecOn with
    | nil => exact Nat.le_refl 0
    | append_singleton front c ih =>
      have hle := ih ((List.prefix_append front [c]).trans hfront)
      by_cases hc : c = ')'
      · subst hc
        obtain ⟨rest, rfl⟩ := hfront
        have hr : runs (front ++ [')'] ++ rest) = runs front ++ [')'] :: runs rest := by
          rw [List.append_assoc]
          exact runs_append_cons alone_closing front rest
        have hlt := h _ _ hr
        rw [count_runs alone_opening, count_runs alone_closing] at hlt
        simp only [List.count_append]
        simp
        omega
      · rw [List.count_append, List.count_append, List.count_singleton]
        simp only [beq_iff_eq, hc, if_false]
        omega

theorem head?_behind_iff {before behind : List (List Char)} {run : List Char}
    (hr : runs text = before ++ run :: behind) :
    behind.flatten.head? = some '(' ↔ behind.head? = some ['('] := by
  have hrow := areRuns_runs text
  rw [hr] at hrow
  exact Cursor.head?_flatten_eq_iff hrow.right.tail

theorem Acceptable.offence?_eq_none (h : Acceptable source start text)
    {before behind : List (List Char)} {run : List Char}
    (hr : runs text = before ++ run :: behind) :
    offence? source start before run behind = none := by
  have hrow : AreRuns (before ++ run :: behind) := hr ▸ areRuns_runs text
  have hmem : run ∈ runs text := by
    rw [hr]
    exact List.mem_append_right _ List.mem_cons_self
  cases hrow.form_of_append with
  | blank hb => exact offence?_blank hb
  | operation operator => exact offence?_operation operator
  | opening => exact offence?_opening
  | numeric hne hall =>
    have hn := h.numerals run hmem hall
    rw [← List.any_eq_true] at hn
    rw [offence?_numeric hne hall, if_pos hn]
  | @letter c hc =>
    rw [offence?_letter hc, Source.refusal?_eq_none_iff]
    exact h.answers before c behind hr hc
  | name hl hne hall =>
    have hlen : 2 ≤ run.length := by
      have hpos := List.length_pos_iff.mpr hne
      have hone : run.length ≠ 1 := by
        intro ho
        obtain ⟨c, rfl⟩ := List.length_eq_one_iff.mp ho
        exact hl c rfl
      omega
    obtain ⟨⟨function, hn⟩, hb⟩ := h.names before run behind hr hall hlen
    rw [offence?_name hl hne hall, if_pos]
    exact ⟨⟨function, by cases function <;> decide, hn⟩, (head?_behind_iff hr).mp hb⟩
  | closing =>
    rw [offence?_closing, if_pos (nesting_iff.mp h.nesting before behind hr)]
  | @illegal c hb hf =>
    have hc : c ∈ text := by
      rw [← flatten_runs text]
      exact List.mem_flatten_of_mem hmem List.mem_cons_self
    exact absurd ⟨hb, hf⟩ (classes_iff.mp (h.characters c hc))

theorem acceptable_of_offence?_eq_none
    (h : ∀ before run behind, runs text = before ++ run :: behind →
      offence? source start before run behind = none)
    (hbalance : text.count '(' = text.count ')') : Acceptable source start text where
  balance := hbalance
  nesting := by
    rw [nesting_iff]
    intro before behind hr
    have ho := h before [')'] behind hr
    rw [offence?_closing] at ho
    by_contra hlt
    rw [if_neg hlt] at ho
    cases ho
  answers := by
    intro before name behind hr hname
    have ho := h before [name] behind hr
    rwa [offence?_letter hname, Source.refusal?_eq_none_iff] at ho
  names := by
    intro before run behind hr hall hlen
    have hl : ∀ c, run ≠ [c] := by
      rintro c rfl
      exact absurd hlen (Nat.lt_irrefl 1)
    have hne : run ≠ [] := by
      rintro rfl
      exact absurd hlen (Nat.not_succ_le_zero 1)
    have ho := h before run behind hr
    rw [offence?_name hl hne hall] at ho
    split at ho
    · rename_i hf
      obtain ⟨⟨function, -, hn⟩, hb⟩ := hf
      exact ⟨⟨function, hn⟩, (head?_behind_iff hr).mpr hb⟩
    · cases ho
  numerals := by
    intro run hmem hall
    obtain ⟨before, behind, hr⟩ := List.append_of_mem hmem
    have hrow : AreRuns (before ++ run :: behind) := hr ▸ areRuns_runs text
    have ho := h before run behind hr
    rw [offence?_numeric hrow.right.ne_nil hall] at ho
    by_contra hn
    rw [← List.any_eq_true] at hn
    rw [if_neg hn] at ho
    cases ho
  characters := by
    intro c hc
    rw [classes_iff]
    rintro ⟨hb, hf⟩
    obtain ⟨front, rest, rfl⟩ := List.append_of_mem hc
    have ho := h _ _ _ (runs_append_cons (alone_of_ofFirst?_eq_none hf) front rest)
    rw [offence?_illegal hb hf] at ho
    cases ho

theorem acceptable_iff : Acceptable source start text ↔
    firstOffence? source start [] (runs text) = none ∧ text.count '(' = text.count ')' := by
  rw [firstOffence?_eq_none_iff]
  constructor
  · exact fun h => ⟨fun front run behind hr => h.offence?_eq_none hr, h.balance⟩
  · exact fun h => acceptable_of_offence?_eq_none (fun before run behind => h.1 before run behind) h.2

/-- A conversion has a result exactly for the acceptable texts. It fails for the leftmost offence
of a text, and, if nothing offends, for a parenthesis that stays open. -/
theorem convert_succeeds_or_fails_first (source : Source σ) (start : σ) (expression : String) :
    ((∃ nodes, ((convert expression).run source start).outcome = .ok nodes) ↔
      Acceptable source start expression.toList) ∧
    ∀ failure, ((convert expression).run source start).outcome = .error failure ↔
      LeftmostOffence source start expression.toList failure ∨
      (¬ ∃ offence, LeftmostOffence source start expression.toList offence) ∧
        expression.toList.count '(' ≠ expression.toList.count ')' ∧
        failure = .unclosedParenthesis := by
  have hs := settles_convert source expression start
  simp only [acceptable_iff, leftmostOffence_iff]
  cases ho : firstOffence? source start [] (runs expression.toList) with
  | some offence =>
    rw [ho, Settles] at hs
    rw [hs]
    simp
  | none =>
    rw [ho, Settles, count_runs alone_opening, count_runs alone_closing] at hs
    split at hs
    · rename_i hc
      obtain ⟨nodes, hn⟩ := hs
      rw [hn]
      simp [hc]
    · rename_i hc
      rw [hs]
      simp [hc, eq_comm]

end Calculator
