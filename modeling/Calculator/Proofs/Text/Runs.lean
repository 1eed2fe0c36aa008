import Calculator.Proofs.Text.Classes
import Mathlib.Data.List.SplitBy

/-!
# The runs of a text

A text is cut between any two neighbours that are neither both digits or points nor
both letters. The pieces are the maximal runs of these two classes and every other
character alone. Tokens are runs: what a kind takes from the front of a text is the
whole first run.
-/
namespace Calculator

open Text TokenKind

def joined (a b : Char) : Bool :=
  isNumeric a && isNumeric b || isAlphabetic a && isAlphabetic b

/-- The maximal runs of digits and points, those of letters, and all other characters alone. -/
def runs (text : List Char) : List (List Char) :=
  text.splitBy joined

def AreRuns (row : List (List Char)) : Prop :=
  runs row.flatten = row

theorem joined_of_admits {a b : Char} {kind : TokenKind} (hk : kind = .number ∨ kind = .identifier)
    (ha : kind.Admits a = true) : joined a b = kind.Admits b := by
  rcases hk with rfl | rfl
  · have hl : isAlphabetic a = false := admits_eq_false ha .identifier (by decide)
    have ha' : isNumeric a = true := ha
    simp [joined, hl, ha', Admits]
  · have hn : isNumeric a = false := admits_eq_false ha .number (by decide)
    have ha' : isAlphabetic a = true := ha
    simp [joined, hn, ha', Admits]

/-- A character that belongs to no longer run. -/
def alone (c : Char) : Bool :=
  !isNumeric c && !isAlphabetic c

theorem joined_of_alone_left {a b : Char} (h : alone a = true) : joined a b = false := by
  simp only [alone, Bool.and_eq_true, Bool.not_eq_true'] at h
  simp [joined, h]

theorem joined_of_alone_right {a b : Char} (h : alone b = true) : joined a b = false := by
  simp only [alone, Bool.and_eq_true, Bool.not_eq_true'] at h
  simp [joined, h]

theorem alone_of_admits {c : Char} {kind : TokenKind} (hk : kind = .operator ∨ kind = .punctuation)
    (h : kind.Admits c = true) : alone c = true := by
  have hn : isNumeric c = false :=
    admits_eq_false h .number (by rcases hk with rfl | rfl <;> decide)
  have hl : isAlphabetic c = false :=
    admits_eq_false h .identifier (by rcases hk with rfl | rfl <;> decide)
  simp [alone, hn, hl]

theorem alone_symbol (operator : Operator) : alone operator.symbol = true :=
  alone_of_admits (.inl rfl) (ofFirst?_eq_some_iff.mp (ofFirst?_symbol operator))

theorem alone_opening : alone '(' = true := by decide

theorem alone_closing : alone ')' = true := by decide

theorem alone_of_ofFirst?_eq_none {c : Char} (h : ofFirst? c = none) : alone c = true := by
  have hn : isNumeric c = false := admits_of_ofFirst?_eq_none h .number
  have hl : isAlphabetic c = false := admits_of_ofFirst?_eq_none h .identifier
  simp [alone, hn, hl]

theorem alone_of_isBlank {c : Char} (h : isBlank c = true) : alone c = true :=
  alone_of_ofFirst?_eq_none (ofFirst?_of_isBlank h)

theorem flatten_runs (text : List Char) : (runs text).flatten = text :=
  List.flatten_splitBy joined text

theorem areRuns_runs (text : List Char) : AreRuns (runs text) := by
  rw [AreRuns, flatten_runs]

theorem areRuns_iff {row : List (List Char)} :
    AreRuns row ↔ [] ∉ row ∧ (∀ run ∈ row, run.IsChain fun a b => joined a b = true) ∧
      row.IsChain fun a b => ∃ ha hb, joined (a.getLast ha) (b.head hb) = false := by
  rw [AreRuns, runs, List.splitBy_eq_iff]
  simp

theorem runs_append {before behind : List Char}
    (h : ∀ a ∈ before.getLast?, ∀ b ∈ behind.head?, joined a b = false) :
    runs (before ++ behind) = runs before ++ runs behind :=
  List.splitBy_append h

theorem runs_singleton (c : Char) : runs [c] = [[c]] := by
  simp [runs, List.splitBy_of_isChain]

theorem runs_of_admits {run : List Char} {kind : TokenKind}
    (hk : kind = .number ∨ kind = .identifier) (hne : run ≠ [])
    (hall : ∀ c ∈ run, kind.Admits c = true) : runs run = [run] := by
  refine List.splitBy_of_isChain hne ?_
  have htrue : run.Pairwise fun _ _ => True := List.pairwise_of_forall fun _ _ => trivial
  refine List.Pairwise.isChain (List.Pairwise.imp_of_mem ?_ htrue)
  intro a b ha hb _
  rw [joined_of_admits hk (hall a ha)]
  exact hall b hb

namespace AreRuns

variable {run : List Char} {first : Char} {others : List Char} {behind : List (List Char)}

theorem tail (h : AreRuns (run :: behind)) : AreRuns behind := by
  rw [areRuns_iff] at h ⊢
  obtain ⟨hne, hall, hseam⟩ := h
  exact ⟨fun hm => hne (List.mem_cons_of_mem run hm),
    fun r hr => hall r (List.mem_cons_of_mem run hr), hseam.tail⟩

theorem ne_nil (h : AreRuns (run :: behind)) : run ≠ [] := by
  rw [areRuns_iff] at h
  intro he
  exact h.1 (he ▸ List.mem_cons_self)

theorem seam (h : AreRuns (run :: behind)) :
    ∀ a ∈ run.getLast?, ∀ b ∈ behind.flatten.head?, joined a b = false := by
  intro a ha b hb
  cases behind with
  | nil => simp at hb
  | cons next rest =>
    obtain ⟨hnr, hnn, hj⟩ := (List.isChain_cons_cons.mp (areRuns_iff.mp h).2.2).1
    have hlast : run.getLast hnr = a := by
      rw [List.getLast?_eq_some_getLast hnr] at ha
      exact Option.some.inj ha
    have hhead : next.head hnn = b := by
      rw [List.flatten_cons, List.head?_append_of_ne_nil _ hnn, List.head?_eq_some_head hnn] at hb
      exact Option.some.inj hb
    rwa [hlast, hhead] at hj

theorem all_of_head (h : AreRuns ((first :: others) :: behind)) {kind : TokenKind}
    (hk : kind = .number ∨ kind = .identifier) (hf : kind.Admits first = true) :
    ∀ c ∈ first :: others, kind.Admits c = true := by
  have hc : (first :: others).IsChain fun a b => joined a b = true :=
    (areRuns_iff.mp h).2.1 _ List.mem_cons_self
  refine List.IsChain.induction (fun c => kind.Admits c = true) _ hc ?_ fun _ => hf
  intro a b hab ha
  rwa [joined_of_admits hk ha] at hab

theorem others_eq_nil (h : AreRuns ((first :: others) :: behind)) (ha : alone first = true) :
    others = [] := by
  have hc : (first :: others).IsChain fun a b => joined a b = true :=
    (areRuns_iff.mp h).2.1 _ List.mem_cons_self
  cases others with
  | nil => rfl
  | cons second rest =>
    have hj := (List.isChain_cons_cons.mp hc).1
    rw [joined_of_alone_left ha] at hj
    cases hj

theorem takeWhile_eq (h : AreRuns ((first :: others) :: behind)) {kind : TokenKind}
    (hk : kind = .number ∨ kind = .identifier) (hf : kind.Admits first = true) :
    (first :: others ++ behind.flatten).takeWhile kind.Admits = first :: others := by
  have hall := h.all_of_head hk hf
  rw [List.takeWhile_append_of_pos hall]
  suffices hr : behind.flatten.takeWhile kind.Admits = [] by rw [hr, List.append_nil]
  cases hb : behind.flatten with
  | nil => rfl
  | cons b rest =>
    have hlast := List.getLast_mem (List.cons_ne_nil first others)
    have hj := h.seam _ (List.getLast?_eq_some_getLast (List.cons_ne_nil first others)) b
      (by rw [hb]; rfl)
    rw [joined_of_admits hk (hall _ hlast)] at hj
    rw [List.takeWhile_cons, hj]
    rfl

/-- The token at the front of a text is its first run. -/
theorem front_eq (h : AreRuns ((first :: others) :: behind)) {kind : TokenKind}
    (hf : ofFirst? first = some kind) :
    kind.front (first :: others ++ behind.flatten) = first :: others := by
  rw [ofFirst?_eq_some_iff] at hf
  cases kind with
  | number => exact h.takeWhile_eq (.inl rfl) hf
  | identifier => exact h.takeWhile_eq (.inr rfl) hf
  | operator =>
    rw [h.others_eq_nil (alone_of_admits (.inl rfl) hf)]
    rfl
  | punctuation =>
    rw [h.others_eq_nil (alone_of_admits (.inr rfl) hf)]
    rfl

end AreRuns

/-- The forms of a run. -/
inductive RunForm : List Char → Prop
  | blank {c : Char} (h : isBlank c = true) : RunForm [c]
  | numeric {run : List Char} (hne : run ≠ []) (h : ∀ c ∈ run, isNumeric c = true) : RunForm run
  | letter {c : Char} (h : isAlphabetic c = true) : RunForm [c]
  | name {run : List Char} (hl : ∀ c, run ≠ [c]) (hne : run ≠ [])
      (h : ∀ c ∈ run, isAlphabetic c = true) : RunForm run
  | operation (operator : Operator) : RunForm [operator.symbol]
  | opening : RunForm ['(']
  | closing : RunForm [')']
  | illegal {c : Char} (hb : isBlank c = false) (h : ofFirst? c = none) : RunForm [c]

theorem AreRuns.form {run : List Char} {behind : List (List Char)} (h : AreRuns (run :: behind)) :
    RunForm run := by
  cases run with
  | nil => exact absurd rfl h.ne_nil
  | cons first others =>
    cases hb : isBlank first with
    | true =>
      rw [h.others_eq_nil (alone_of_isBlank hb)]
      exact .blank hb
    | false =>
      cases hf : ofFirst? first with
      | none =>
        rw [h.others_eq_nil (alone_of_ofFirst?_eq_none hf)]
        exact .illegal hb hf
      | some kind =>
        rw [ofFirst?_eq_some_iff] at hf
        cases kind with
        | number => exact .numeric (List.cons_ne_nil _ _) (h.all_of_head (.inl rfl) hf)
        | identifier =>
          have hall := h.all_of_head (.inr rfl) hf
          cases others with
          | nil => exact .letter hf
          | cons second rest => exact .name (fun c hc => by cases hc) (List.cons_ne_nil _ _) hall
        | operator =>
          rw [h.others_eq_nil (alone_of_admits (.inl rfl) hf)]
          obtain ⟨operator, rfl⟩ := exists_symbol_eq hf
          exact .operation operator
        | punctuation =>
          rw [h.others_eq_nil (alone_of_admits (.inr rfl) hf)]
          have hp : first = '(' ∨ first = ')' := by simpa [Admits, isParenthesis] using hf
          rcases hp with rfl | rfl
          · exact .opening
          · exact .closing

theorem AreRuns.left {before behind : List (List Char)} (h : AreRuns (before ++ behind)) :
    AreRuns before := by
  rw [areRuns_iff] at h ⊢
  obtain ⟨hne, hall, hseam⟩ := h
  exact ⟨fun hm => hne (List.mem_append_left _ hm),
    fun run hr => hall run (List.mem_append_left _ hr), hseam.left_of_append⟩

theorem AreRuns.right {before behind : List (List Char)} (h : AreRuns (before ++ behind)) :
    AreRuns behind := by
  induction before with
  | nil => exact h
  | cons run before ih => exact ih h.tail

theorem AreRuns.form_of_append {before behind : List (List Char)} {run : List Char}
    (h : AreRuns (before ++ run :: behind)) : RunForm run :=
  h.right.form

/-- A text falls apart at a character that is alone. -/
theorem runs_append_cons {c : Char} (h : alone c = true) (before behind : List Char) :
    runs (before ++ c :: behind) = runs before ++ [c] :: runs behind := by
  have hb : runs (c :: behind) = [c] :: runs behind := by
    have hr : runs ([c] ++ behind) = runs [c] ++ runs behind := by
      refine runs_append ?_
      intro a ha b hb
      rw [List.getLast?_singleton, Option.mem_some_iff] at ha
      rw [← ha]
      exact joined_of_alone_left h
    rw [runs_singleton] at hr
    exact hr
  rw [runs_append, hb]
  intro a ha b hb
  rw [List.head?_cons, Option.mem_some_iff] at hb
  rw [← hb]
  exact joined_of_alone_right h

/-- Blanks are runs one by one. -/
theorem runs_blanks_append {blanks : List Char} (h : ∀ c ∈ blanks, isBlank c = true)
    (behind : List Char) : runs (blanks ++ behind) = blanks.map ([·]) ++ runs behind := by
  induction blanks with
  | nil => rfl
  | cons c blanks ih =>
    have hc := alone_of_isBlank (h c List.mem_cons_self)
    rw [List.map_cons, List.cons_append, List.cons_append,
      ← ih fun d hd => h d (List.mem_cons_of_mem c hd)]
    exact runs_append_cons hc [] (blanks ++ behind)

theorem count_run_of_alone {c : Char} (h : alone c = true) {run : List Char} (hr : RunForm run) :
    run.count c = if run = [c] then 1 else 0 := by
  have hsingle : ∀ d : Char, [d].count c = if [d] = [c] then 1 else 0 := by
    intro d
    simp [List.count_singleton]
  have hlong : ∀ kind : TokenKind, kind = .number ∨ kind = .identifier →
      (∀ d ∈ run, kind.Admits d = true) → run.count c = if run = [c] then 1 else 0 := by
    intro kind hk hall
    have hc : kind.Admits c = false := by
      simp only [alone, Bool.and_eq_true, Bool.not_eq_true'] at h
      rcases hk with rfl | rfl
      · exact h.1
      · exact h.2
    have hm : c ∉ run := by
      intro hm
      rw [hall c hm] at hc
      cases hc
    rw [List.count_eq_zero.mpr hm, if_neg]
    rintro rfl
    exact hm List.mem_cons_self
  cases hr with
  | numeric hne hall => exact hlong .number (.inl rfl) hall
  | name hl hne hall => exact hlong .identifier (.inr rfl) hall
  | blank hb => exact hsingle _
  | letter hc => exact hsingle _
  | operation operator => exact hsingle _
  | opening => exact hsingle _
  | closing => exact hsingle _
  | illegal hb hf => exact hsingle _

/-- A character that is alone is counted by its runs. -/
theorem AreRuns.count_flatten {c : Char} (h : alone c = true) {row : List (List Char)}
    (hrow : AreRuns row) : row.flatten.count c = row.count [c] := by
  induction row with
  | nil => rfl
  | cons run behind ih =>
    rw [List.flatten_cons, List.count_append, count_run_of_alone h hrow.form, ih hrow.tail,
      List.count_cons, Nat.add_comm]
    simp only [beq_iff_eq]

theorem count_runs {c : Char} (h : alone c = true) (text : List Char) :
    (runs text).count [c] = text.count c := by
  rw [← (areRuns_runs text).count_flatten h, flatten_runs]

end Calculator
