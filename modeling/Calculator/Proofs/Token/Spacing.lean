import Calculator.Proofs.Conversion.RunByRun
import Calculator.Proofs.Token.Tiling
import Mathlib.Data.List.Forall2
import Mathlib.Logic.Relation

/-!
# Blanks between tokens

Two texts have the same tokens if the kinds and contents agree, whatever the positions
are, and the same names of functions have their parenthesis directly behind them. Blanks
that come or go between two runs leave a text with the same tokens, unless they come or
go between the name of a function and its parenthesis.
-/
namespace Calculator

open Text TokenKind

/-- The same token, perhaps at another position. Only for the name of a function it counts whether
a parenthesis follows immediately. -/
structure Lexeme.Alike (lexeme other : Lexeme) : Prop where
  kind : lexeme.token.kind = other.token.kind
  content : lexeme.token.content = other.token.content
  opens : ∀ function : NamedFunction, lexeme.token.content = function.name →
    lexeme.opens = other.opens

instance (lexeme other : Lexeme) : Decidable (lexeme.Alike other) :=
  decidable_of_iff (lexeme.token.kind = other.token.kind ∧
      lexeme.token.content = other.token.content ∧
      (NamedFunction.ofText? lexeme.token.content = none ∨ lexeme.opens = other.opens)) <| by
    constructor
    · rintro ⟨hkind, hcontent, hopens⟩
      refine ⟨hkind, hcontent, fun function hname => ?_⟩
      refine hopens.resolve_left fun hnone => ?_
      rw [NamedFunction.ofText?_eq_some_iff.mpr hname] at hnone
      cases hnone
    · rintro ⟨hkind, hcontent, hopens⟩
      refine ⟨hkind, hcontent, ?_⟩
      cases hf : NamedFunction.ofText? lexeme.token.content with
      | none => exact .inl rfl
      | some function => exact .inr (hopens function (NamedFunction.ofText?_eq_some_iff.mp hf))

namespace Lexeme.Alike

variable {lexeme other third : Lexeme}

theorem symm (h : lexeme.Alike other) : other.Alike lexeme where
  kind := h.kind.symm
  content := h.content.symm
  opens function hname := (h.opens function (h.content.trans hname)).symm

theorem trans (h : lexeme.Alike other) (hother : other.Alike third) : lexeme.Alike third where
  kind := h.kind.trans hother.kind
  content := h.content.trans hother.content
  opens function hname :=
    (h.opens function hname).trans (hother.opens function (h.content.symm.trans hname))

end Lexeme.Alike

/-- The tokens of two texts agree one by one, in kind and content. -/
def SameTokens (text other : String) : Prop :=
  List.Forall₂ Lexeme.Alike (TokenStream.ofString text).lexemes
    (TokenStream.ofString other).lexemes

/-! ## Blanks that come and go -/

/-- A place between two runs where blanks are of no account: no run reaches across it, and it is
not the place between the name of a function and a parenthesis. -/
structure Seam (before behind : List Char) : Prop where
  apart : ∀ a ∈ before.getLast?, ∀ b ∈ behind.head?, joined a b = false
  unnamed : behind.head? = some '(' →
    ∀ function : NamedFunction, (runs before).getLast? ≠ some function.name

/-- The second text has more blanks at one place. -/
def Spaced (text other : String) : Prop :=
  ∃ before blanks behind, Seam before behind ∧ (∀ c ∈ blanks, isBlank c = true) ∧
    text.toList = before ++ behind ∧ other.toList = before ++ (blanks ++ behind)

/-- The texts differ by blanks that have come or gone, at any number of places. -/
def Respaced : String → String → Prop :=
  Relation.EqvGen Spaced

theorem Spaced.legal_iff {text other : String} (h : Spaced text other) :
    (∀ c ∈ text.toList, Legal c) ↔ ∀ c ∈ other.toList, Legal c := by
  obtain ⟨before, blanks, behind, -, hblanks, htext, hother⟩ := h
  rw [htext, hother, List.forall_mem_append, List.forall_mem_append, List.forall_mem_append]
  have hlegal : ∀ c ∈ blanks, Legal c := fun c hc => legal_of_isBlank (hblanks c hc)
  constructor
  · rintro ⟨hbefore, hbehind⟩
    exact ⟨hbefore, hlegal, hbehind⟩
  · rintro ⟨hbefore, -, hbehind⟩
    exact ⟨hbefore, hbehind⟩

theorem Respaced.legal_iff {text other : String} (h : Respaced text other) :
    (∀ c ∈ text.toList, Legal c) ↔ ∀ c ∈ other.toList, Legal c := by
  induction h with
  | rel text other h => exact h.legal_iff
  | refl text => exact Iff.rfl
  | symm text other h ih => exact ih.symm
  | trans text middle other h hm ih ihm => exact ih.trans ihm

/-! ## The tokens of rows that differ by blanks -/

/-- A seam keeps the runs on both sides, also with blanks in it. -/
theorem Seam.runs_spaced {before behind blanks : List Char} (h : Seam before behind)
    (hblanks : ∀ c ∈ blanks, isBlank c = true) :
    runs (before ++ (blanks ++ behind)) = runs before ++ (blanks.map ([·]) ++ runs behind) := by
  rcases blanks with _ | ⟨c, blanks⟩
  · exact runs_append h.apart
  · have hc := alone_of_isBlank (hblanks c List.mem_cons_self)
    rw [List.cons_append, runs_append_cons hc,
      runs_blanks_append fun d hd => hblanks d (List.mem_cons_of_mem c hd)]
    rfl

namespace TokenStream

theorem ofRuns_blanks {blanks : List Char} (h : ∀ c ∈ blanks, isBlank c = true)
    (behind : List (List Char)) (position : Nat) :
    ofRuns position (blanks.map ([·]) ++ behind) = ofRuns (position + blanks.length) behind := by
  induction blanks generalizing position with
  | nil => rfl
  | cons c blanks ih =>
    rw [List.map_cons, List.cons_append, ofRuns, if_pos (h c List.mem_cons_self),
      ih fun d hd => h d (List.mem_cons_of_mem c hd), List.length_cons, Nat.add_assoc,
      Nat.add_comm 1]

/-- The position of a row appears in the positions of its tokens only. -/
theorem alike_ofRuns (row : List (List Char)) (position other : Nat) :
    List.Forall₂ Lexeme.Alike (ofRuns position row).lexemes (ofRuns other row).lexemes := by
  induction row generalizing position other with
  | nil => exact .nil
  | cons run behind ih =>
    rcases run with _ | ⟨first, others⟩
    · exact ih position other
    · rw [ofRuns, ofRuns]
      cases isBlank first with
      | true => exact ih _ _
      | false =>
        cases ofFirst? first with
        | none => exact .nil
        | some kind => exact .cons ⟨rfl, rfl, fun _ _ => rfl⟩ (ih _ _)

/-- A run before the blanks sees the same parenthesis behind it, unless it is the last one and none
of the names. -/
theorem opens_alike {run : List Char} {before behind : List (List Char)} {blanks : List Char}
    (hblanks : ∀ c ∈ blanks, isBlank c = true)
    (hseam : behind.head? = some ['('] →
      ∀ function : NamedFunction, (run :: before).getLast? ≠ some function.name)
    {function : NamedFunction} (hrun : run = function.name) :
    decide ((before ++ behind).head? = some ['(']) =
      decide ((before ++ (blanks.map ([·]) ++ behind)).head? = some ['(']) := by
  rcases before with _ | ⟨next, before⟩
  · rcases blanks with _ | ⟨c, blanks⟩
    · rfl
    · have hopens : behind.head? ≠ some ['('] := by
        intro ho
        refine hseam ho function ?_
        rw [hrun]
        rfl
      have hblank : [c] ≠ ['('] := by
        intro hc
        have h := hblanks c List.mem_cons_self
        rw [(List.cons.inj hc).1] at h
        exact absurd h (by decide)
      rw [List.nil_append, decide_eq_false hopens]
      exact (decide_eq_false fun h => hblank (Option.some.inj h)).symm
  · rfl

/-- The induction is on the runs before the blanks. -/
theorem alike_ofRuns_append {blanks : List Char} (hblanks : ∀ c ∈ blanks, isBlank c = true)
    {before behind : List (List Char)}
    (hseam : behind.head? = some ['('] →
      ∀ function : NamedFunction, before.getLast? ≠ some function.name) (position other : Nat) :
    List.Forall₂ Lexeme.Alike (ofRuns position (before ++ behind)).lexemes
      (ofRuns other (before ++ (blanks.map ([·]) ++ behind))).lexemes := by
  induction before generalizing position other with
  | nil =>
    rw [List.nil_append, List.nil_append, ofRuns_blanks hblanks]
    exact alike_ofRuns behind _ _
  | cons run before ih =>
    have hrest : behind.head? = some ['('] →
        ∀ function : NamedFunction, before.getLast? ≠ some function.name := by
      intro ho function hlast
      refine hseam ho function ?_
      rw [List.getLast?_cons, hlast]
      rfl
    rcases run with _ | ⟨first, others⟩
    · exact ih hrest position other
    · rw [List.cons_append, List.cons_append, ofRuns, ofRuns]
      cases isBlank first with
      | true => exact ih hrest _ _
      | false =>
        cases ofFirst? first with
        | none => exact .nil
        | some kind =>
          exact .cons ⟨rfl, rfl, fun _ hname => opens_alike hblanks hseam hname⟩ (ih hrest _ _)

end TokenStream

/-! ## Respaced texts have the same tokens -/

theorem Spaced.sameTokens {text other : String} (h : Spaced text other) :
    SameTokens text other := by
  obtain ⟨before, blanks, behind, hseam, hblanks, htext, hother⟩ := h
  have hrow : runs text.toList = runs before ++ runs behind := by
    rw [htext, runs_append hseam.apart]
  have hspaced : runs other.toList = runs before ++ (blanks.map ([·]) ++ runs behind) := by
    rw [hother, hseam.runs_spaced hblanks]
  rw [SameTokens, TokenStream.ofString_eq_ofRuns, TokenStream.ofString_eq_ofRuns, hrow, hspaced]
  refine TokenStream.alike_ofRuns_append hblanks ?_ 0 0
  intro ho
  rw [← Cursor.head?_flatten_eq_iff (areRuns_runs behind), flatten_runs] at ho
  exact hseam.unnamed ho

theorem SameTokens.symm {text other : String} (h : SameTokens text other) :
    SameTokens other text :=
  List.Forall₂.flip (List.Forall₂.imp (fun _ _ => Lexeme.Alike.symm) h)

theorem forall₂_alike_trans {lexemes others thirds : List Lexeme}
    (h : List.Forall₂ Lexeme.Alike lexemes others)
    (hothers : List.Forall₂ Lexeme.Alike others thirds) :
    List.Forall₂ Lexeme.Alike lexemes thirds := by
  induction h generalizing thirds with
  | nil => exact hothers
  | cons hlexeme _ ih =>
    cases hothers with
    | cons hother hrest => exact .cons (hlexeme.trans hother) (ih hrest)

theorem Respaced.sameTokens {text other : String} (h : Respaced text other) :
    SameTokens text other := by
  induction h with
  | rel text other h => exact h.sameTokens
  | refl text => exact List.forall₂_same.mpr fun lexeme _ => ⟨rfl, rfl, fun _ _ => rfl⟩
  | symm text other h ih => exact ih.symm
  | trans text middle other h hm ih ihm => exact forall₂_alike_trans ih ihm

end Calculator
