import Calculator.Proofs.Conversion.RunByRun
import Calculator.Proofs.Grammar.Group
import Calculator.Proofs.Number.Numeral

/-!
# Spellings

The texts that write a row of marks: one mark after the other, with any blanks between
them. A name and its parenthesis are one mark, so nothing comes between those two. A
row in which every mark may stand where it stands is read back from any of its texts.
-/
namespace Calculator

open Text
open TokenKind (isNumeric ofFirst? ofFirst?_of_isNumeric ofFirst?_of_isAlphabetic
  ofFirst?_symbol ofFirst?_head?_singleton ofFirst?_eq_some_iff not_isBlank_of_admits)

/-- Digits with at most one point. -/
structure Numeral where
  digits : List Char
  numeric : ∀ c ∈ digits, isNumeric c = true
  digit : ∃ c ∈ digits, c.isDigit = true
  point : digits.count '.' ≤ 1

namespace Numeral

theorem isSome_read? (numeral : Numeral) : (Number.read? numeral.digits).isSome = true :=
  (Number.isSome_read?_iff numeral.numeric).mpr ⟨numeral.digit, numeral.point⟩

def value (numeral : Numeral) : Float :=
  (Number.read? numeral.digits).get numeral.isSome_read?

theorem read?_digits (numeral : Numeral) : Number.read? numeral.digits = some numeral.value :=
  (Option.some_get numeral.isSome_read?).symm

theorem digits_ne_nil (numeral : Numeral) : numeral.digits ≠ [] := by
  obtain ⟨c, hc, -⟩ := numeral.digit
  exact List.ne_nil_of_mem hc

def two : Numeral :=
  ⟨['2'], List.forall_mem_singleton.mpr (by decide), ⟨'2', List.mem_cons_self, by decide⟩,
    by decide⟩

def three : Numeral :=
  ⟨['3'], List.forall_mem_singleton.mpr (by decide), ⟨'3', List.mem_cons_self, by decide⟩,
    by decide⟩

end Numeral

structure Variable where
  name : Char
  alphabetic : isAlphabetic name = true

def Variable.x : Variable :=
  ⟨'x', by decide⟩

/-- What is written as an operand. -/
inductive Operand where
  | numeral (numeral : Numeral)
  | letter (letter : Variable)

namespace Mark

def chars : Mark Operand → List Char
  | operand (.numeral numeral) => numeral.digits
  | operand (.letter letter) => [letter.name]
  | call function => function.name ++ ['(']
  | sign => [Operator.subtraction.symbol]
  | operation operator => [operator.symbol]
  | opening => ['(']
  | closing => [')']

def symbol : Mark Operand → Symbol
  | operand (.numeral numeral) => .number numeral.value
  | operand (.letter letter) => .letter letter.name
  | call function => .call function
  | sign => .sign
  | operation operator => .operation operator
  | opening => .opening
  | closing => .closing

end Mark

/-- The text writes the marks. -/
inductive Spelling : List (Mark Operand) → List Char → Prop
  | nil : Spelling [] []
  | blank {marks : List (Mark Operand)} {text : List Char} {c : Char} (hb : isBlank c = true)
      (hs : Spelling marks text) : Spelling marks (c :: text)
  | mark {marks : List (Mark Operand)} {text : List Char} (mark : Mark Operand)
      (hs : Spelling marks text) : Spelling (mark :: marks) (mark.chars ++ text)

namespace Spelling

theorem append {marks more : List (Mark Operand)} {text rest : List Char} (h : Spelling marks text)
    (hr : Spelling more rest) : Spelling (marks ++ more) (text ++ rest) := by
  induction h with
  | nil => exact hr
  | blank hb _ ih => exact .blank hb ih
  | mark mark _ ih =>
    rw [List.append_assoc, List.cons_append]
    exact .mark mark ih

theorem singleton (mark : Mark Operand) : Spelling [mark] mark.chars := by
  have h := Spelling.mark mark .nil
  rwa [List.append_nil] at h

/-- Behind a complete operand a character that is alone comes next. -/
theorem alone_of_complete {marks : List (Mark Operand)} {text : List Char} (h : Spelling marks text)
    {last : Stage} (ht : Stage.complete.through? marks = some last) :
    ∀ c ∈ text.head?, alone c = true := by
  cases h with
  | nil => exact nofun
  | blank hb _ =>
    intro c hc
    rw [List.head?_cons, Option.mem_some_iff] at hc
    exact hc ▸ alone_of_isBlank hb
  | mark mark _ =>
    intro c hc
    cases mark with
    | operation operator =>
      have he : operator.symbol = c := by simpa [Mark.chars] using hc
      exact he ▸ alone_symbol operator
    | closing =>
      have he : ')' = c := by simpa [Mark.chars] using hc
      exact he ▸ alone_closing
    | operand a => cases ht
    | call function => cases ht
    | sign => cases ht
    | opening => cases ht

theorem runs_append_of_alone {run text : List Char} (hr : runs run = [run])
    (h : ∀ c ∈ text.head?, alone c = true) : runs (run ++ text) = run :: runs text := by
  rw [runs_append fun a _ b hb => joined_of_alone_right (h b hb), hr]
  rfl

theorem runs_cons {c : Char} (h : alone c = true) (text : List Char) :
    runs (c :: text) = [c] :: runs text :=
  runs_append_cons h [] text

theorem blanks {blanks : List Char} (h : ∀ c ∈ blanks, isBlank c = true) :
    Spelling [] blanks := by
  induction blanks with
  | nil => exact .nil
  | cons c blanks ih =>
    exact .blank (h c List.mem_cons_self) (ih fun d hd => h d (List.mem_cons_of_mem c hd))

variable {marks : List (Mark Operand)} {text : List Char} {place : Place} {position : Nat}

/-- A run and its symbol are read, if the rest is read behind it. -/
theorem readRuns_run {run : List Char} {kind : TokenKind}
    (hk : ∀ c ∈ run.head?, ofFirst? c = some kind) (hne : run ≠ []) (hp : place ≠ .behindName) {symbol : Symbol} {behind : List (List Char)}
    (hs : (runLexeme kind run position behind).symbol (place = .leading) = .ok symbol)
    {symbols : List Symbol}
    (ih : ∀ position, readRuns symbol.place position behind = ⟨symbols, none⟩) :
    readRuns place position (run :: behind) = ⟨symbol :: symbols, none⟩ := by
  obtain ⟨first, others, rfl⟩ := List.exists_cons_of_ne_nil hne
  have hf : ofFirst? first = some kind := hk first rfl
  have hb : isBlank first = false := not_isBlank_of_admits (ofFirst?_eq_some_iff.mp hf)
  rw [readRuns_symbol hb hf hp hs, ih]
  rfl

theorem readRuns_operand (operand : Operand) (hc : ∀ c ∈ text.head?, alone c = true)
    (hp : place ≠ .behindName)
    (ih : ∀ position, readRuns .inner position (runs text) = ⟨marks.map Mark.symbol, none⟩) :
    readRuns place position (runs (Mark.chars (.operand operand) ++ text)) =
      ⟨(.operand operand :: marks).map Mark.symbol, none⟩ := by
  cases operand with
  | numeral numeral =>
    rw [Mark.chars, runs_append_of_alone
      (runs_of_admits (.inl rfl) numeral.digits_ne_nil numeral.numeric) hc]
    refine readRuns_run ?_ numeral.digits_ne_nil hp (symbol_number _ numeral.read?_digits) ih
    intro c hm
    exact ofFirst?_of_isNumeric (numeral.numeric c (List.mem_of_mem_head? hm))
  | letter letter =>
    have hf := ofFirst?_head?_singleton (ofFirst?_of_isAlphabetic letter.alphabetic)
    rw [Mark.chars, runs_append_of_alone (runs_singleton letter.name) hc]
    exact readRuns_run hf (List.cons_ne_nil _ _) hp (symbol_letter _ letter.name) ih

/-- A call is two runs; the second has no symbol of its own. -/
theorem readRuns_call (function : NamedFunction) (hp : place ≠ .behindName)
    (ih : ∀ position, readRuns .leading position (runs text) = ⟨marks.map Mark.symbol, none⟩) :
    readRuns place position (runs (Mark.chars (.call function) ++ text)) =
      ⟨(.call function :: marks).map Mark.symbol, none⟩ := by
  have hall : function.name.all isAlphabetic = true := by cases function <;> decide
  rw [List.all_eq_true] at hall
  have hne : function.name ≠ [] := by cases function <;> decide
  have hr : runs (Mark.chars (.call function) ++ text) = function.name :: ['('] :: runs text := by
    rw [Mark.chars, List.append_assoc, List.singleton_append, runs_append_cons alone_opening,
      runs_of_admits (.inr rfl) hne hall]
    rfl
  rw [hr]
  refine readRuns_run ?_ hne hp (symbol_call _ rfl) ?_
  · intro c hm
    exact ofFirst?_of_isAlphabetic (hall c (List.mem_of_mem_head? hm))
  · intro position
    have hf : ofFirst? '(' = some .punctuation := by decide
    rw [Symbol.place, readRuns_behindName (by decide) hf]
    exact ih _

/-- A mark is read, if the rest is read behind it. -/
theorem readRuns_mark (mark : Mark Operand) {stage next : Stage}
    (ha : stage.after? mark = some next) (hc : next = .complete → ∀ c ∈ text.head?, alone c = true)
    (hp : place ≠ .behindName) (hpl : place = .leading ↔ stage = .leading)
    (ih : ∀ position place, place ≠ .behindName → (place = .leading ↔ next = .leading) →
      readRuns place position (runs text) = ⟨marks.map Mark.symbol, none⟩) :
    readRuns place position (runs (mark.chars ++ text)) =
      ⟨(mark :: marks).map Mark.symbol, none⟩ := by
  have hnext := Stage.after?_eq_stage ha
  cases mark with
  | operand operand =>
    subst hnext
    exact readRuns_operand operand (hc rfl) hp fun position =>
      ih position .inner nofun ⟨nofun, nofun⟩
  | call function =>
    subst hnext
    exact readRuns_call function hp fun position =>
      ih position .leading nofun ⟨fun _ => rfl, fun _ => rfl⟩
  | sign =>
    have hst : stage = .leading := by cases stage <;> first | rfl | cases ha
    subst hst
    subst hnext
    obtain rfl := hpl.mpr rfl
    have hf := ofFirst?_head?_singleton (ofFirst?_symbol .subtraction)
    rw [Mark.chars, List.singleton_append, runs_cons (alone_symbol .subtraction)]
    exact readRuns_run hf (List.cons_ne_nil _ _) hp symbol_sign
      fun position => ih position .inner nofun (by decide)
  | operation operator =>
    have hst : stage = .complete := by cases stage <;> first | rfl | cases ha
    subst hst
    subst hnext
    have hpi : ¬ place = .leading := fun h => Stage.noConfusion (hpl.mp h)
    have hf := ofFirst?_head?_singleton (ofFirst?_symbol operator)
    rw [Mark.chars, List.singleton_append, runs_cons (alone_symbol operator)]
    exact readRuns_run hf (List.cons_ne_nil _ _) hp
      (symbol_operation _ (.inl (decide_eq_false hpi)))
      fun position => ih position .inner nofun ⟨nofun, nofun⟩
  | opening =>
    subst hnext
    have hf := @ofFirst?_head?_singleton '(' .punctuation (by decide)
    rw [Mark.chars, List.singleton_append, runs_cons alone_opening]
    exact readRuns_run hf (List.cons_ne_nil _ _) hp (symbol_opening _)
      fun position => ih position .leading nofun (by decide)
  | closing =>
    subst hnext
    have hf := @ofFirst?_head?_singleton ')' .punctuation (by decide)
    rw [Mark.chars, List.singleton_append, runs_cons alone_closing]
    exact readRuns_run hf (List.cons_ne_nil _ _) hp (symbol_closing _)
      fun position => ih position .inner nofun (by decide)

/-- The induction is on the spelling; blanks have no part in what is read. -/
theorem readRuns_eq (h : Spelling marks text) : ∀ {stage last : Stage},
    stage.through? marks = some last → ∀ position place, place ≠ .behindName →
      (place = .leading ↔ stage = .leading) →
        readRuns place position (runs text) = ⟨marks.map Mark.symbol, none⟩ := by
  induction h with
  | nil => exact fun _ _ _ _ _ => rfl
  | blank hb hs ih =>
    intro stage last ht position place hp hpl
    rw [runs_cons (alone_of_isBlank hb), readRuns_blank hb]
    exact ih ht (position + 1) place hp hpl
  | mark mark hs ih =>
    intro stage last ht position place hp hpl
    obtain ⟨next, ha, hn⟩ := Option.bind_eq_some_iff.mp ht
    refine readRuns_mark mark ha ?_ hp hpl (ih hn)
    rintro rfl
    exact hs.alone_of_complete hn

end Spelling

end Calculator
