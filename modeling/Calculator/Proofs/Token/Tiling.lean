import Calculator.Proofs.Token.Scanning

/-!
# Tokens tile their text

The tokens of a text are its own characters, each token at its place: maximal runs of
digits and points or of letters, and single operators and parentheses. They stand in
order and apart, and every character outside of them is blank, up to the end of the
text or to the first character that no expression may have. Places are counted in
characters.
-/
namespace Calculator

open Text TokenKind

/-- The characters that an expression may have. -/
def Legal (c : Char) : Prop :=
  isBlank c ∨ c.isDigit ∨ c = '.' ∨ isAlphabetic c ∨
    (∃ operator : Operator, c = operator.symbol) ∨ c = '(' ∨ c = ')'

theorem legal_of_isBlank {c : Char} (h : isBlank c = true) : Legal c := .inl h

theorem legal_of_admits {c : Char} {kind : TokenKind} (h : kind.Admits c = true) : Legal c := by
  refine classes_iff.mpr fun hn => ?_
  rw [ofFirst?_eq_some_iff.mpr h] at hn
  cases hn.2

theorem not_legal {c : Char} (hb : isBlank c = false) (hf : ofFirst? c = none) : ¬ Legal c :=
  fun h => classes_iff.mp h ⟨hb, hf⟩

namespace Token

/-- The place behind the last character of a token. -/
def stop (token : Token) : Nat :=
  token.position + token.content.length

/-- A token is a part of a text at its position, in one class of characters and not to be
extended: a number or an identifier on neither side, an operator or a parenthesis ever. -/
def StandsIn (text : List Char) (token : Token) : Prop :=
  ∃ before behind, text = before ++ token.content ++ behind ∧
    before.length = token.position ∧ token.content ≠ [] ∧
    (∀ c ∈ token.content, token.kind.Admits c) ∧
    match token.kind with
    | .number | .identifier =>
      (∀ c ∈ before.getLast?, token.kind.Admits c = false) ∧
        ∀ c ∈ behind.head?, token.kind.Admits c = false
    | .operator | .punctuation => token.content.length = 1

end Token

namespace TokenStream

/-- How far the tokens of a stream reach: to the character that it fails at, or to the end. -/
def reach (length : Nat) (stream : TokenStream) : Nat :=
  match stream.ending with
  | some (.invalidCharacter _ position) => position
  | _ => length

/-- A stream has the tokens of a text and ends with it or at its first illegal character. -/
structure Tiles (text : List Char) (stream : TokenStream) : Prop where
  tokens : ∀ lexeme ∈ stream.lexemes, lexeme.token.StandsIn text
  inOrder : stream.lexemes.Pairwise fun lexeme next => lexeme.token.stop ≤ next.token.position
  within : ∀ lexeme ∈ stream.lexemes, lexeme.token.stop ≤ stream.reach text.length
  /-- A character before the end of the stream is in a token, or it is blank. -/
  blanks : ∀ place c, text[place]? = some c → place < stream.reach text.length →
    (∃ lexeme ∈ stream.lexemes, lexeme.token.position ≤ place ∧ place < lexeme.token.stop) ∨
      isBlank c
  complete : stream.ending = none ↔ ∀ c ∈ text, Legal c
  failing : ∀ failure, stream.ending = some failure ↔
    ∃ before c behind, text = before ++ c :: behind ∧ (∀ b ∈ before, Legal b) ∧ ¬ Legal c ∧
      failure = .invalidCharacter c before.length

/-! ## Streams run by run -/

variable {first : Char} {others : List Char} {row behind : List (List Char)} {position : Nat}

theorem ofRuns_blank (h : AreRuns ((first :: others) :: behind)) (hb : isBlank first = true)
    (position : Nat) : ofRuns position ((first :: others) :: behind) =
      ofRuns (position + (first :: others).length) behind := by
  rw [ofRuns, if_pos hb, h.others_eq_nil (alone_of_isBlank hb)]
  rfl

theorem ofRuns_token (hb : isBlank first = false) {kind : TokenKind}
    (hf : ofFirst? first = some kind) (position : Nat) :
    ofRuns position ((first :: others) :: behind) =
      (ofRuns (position + (first :: others).length) behind).cons
        ⟨⟨kind, first :: others, position⟩, behind.head? = some ['(']⟩ := by
  rw [ofRuns, if_neg (by rw [hb]; exact Bool.false_ne_true), hf]

theorem ofRuns_illegal (hb : isBlank first = false) (hf : ofFirst? first = none) (position : Nat) :
    ofRuns position ((first :: others) :: behind) =
      ⟨[], some (.invalidCharacter first position)⟩ := by
  rw [ofRuns, if_neg (by rw [hb]; exact Bool.false_ne_true), hf]

/-- What holds of all rows of runs: a row is empty, or begins with a blank, with a token or with an
illegal character. -/
@[elab_as_elim]
theorem ofRuns_induction {motive : Nat → List (List Char) → Prop}
    (nil : ∀ position, motive position [])
    (blank : ∀ first others behind position, AreRuns ((first :: others) :: behind) →
      isBlank first = true → motive (position + (first :: others).length) behind →
        motive position ((first :: others) :: behind))
    (token : ∀ first others behind position kind, AreRuns ((first :: others) :: behind) →
      isBlank first = false → ofFirst? first = some kind →
        motive (position + (first :: others).length) behind →
          motive position ((first :: others) :: behind))
    (illegal : ∀ first others behind position, AreRuns ((first :: others) :: behind) →
      isBlank first = false → ofFirst? first = none →
        motive position ((first :: others) :: behind))
    (h : AreRuns row) (position : Nat) : motive position row := by
  induction row generalizing position with
  | nil => exact nil position
  | cons run behind ih =>
    obtain ⟨first, others, rfl⟩ := List.exists_cons_of_ne_nil h.ne_nil
    cases hb : isBlank first with
    | true => exact blank first others behind position h hb (ih h.tail _)
    | false =>
      cases hf : ofFirst? first with
      | some kind => exact token first others behind position kind h hb hf (ih h.tail _)
      | none => exact illegal first others behind position h hb hf

theorem admits_of_run (h : AreRuns ((first :: others) :: behind)) {kind : TokenKind}
    (hf : ofFirst? first = some kind) : ∀ c ∈ first :: others, kind.Admits c := by
  rw [ofFirst?_eq_some_iff] at hf
  cases kind with
  | number => exact h.all_of_head (.inl rfl) hf
  | identifier => exact h.all_of_head (.inr rfl) hf
  | operator =>
    rw [h.others_eq_nil (alone_of_admits (.inl rfl) hf)]
    simpa using hf
  | punctuation =>
    rw [h.others_eq_nil (alone_of_admits (.inr rfl) hf)]
    simpa using hf

/-- A token is a run of a row, and its position counts the characters before it. -/
structure IsRun (row : List (List Char)) (position : Nat) (token : Token)
    (before behind : List (List Char)) (first : Char) (others : List Char) : Prop where
  split : row = before ++ (first :: others) :: behind
  content : token.content = first :: others
  position : token.position = position + before.flatten.length
  kind : ofFirst? first = some token.kind

theorem IsRun.cons {token : Token} {run : List Char} {before after : List (List Char)}
    (h : IsRun behind (position + run.length) token before after first others) :
    IsRun (run :: behind) position token (run :: before) after first others where
  split := by rw [h.split, List.cons_append]
  content := h.content
  position := by rw [h.position, List.flatten_cons, List.length_append, Nat.add_assoc]
  kind := h.kind

theorem mem_ofRuns (h : AreRuns row) (position : Nat) :
    ∀ lexeme ∈ (ofRuns position row).lexemes,
      ∃ before behind first others, IsRun row position lexeme.token before behind first others := by
  refine ofRuns_induction ?nil ?blank ?token ?illegal h position
  case nil => exact fun _ _ hm => nomatch hm
  case blank =>
    intro first others behind position h hb ih lexeme hm
    rw [ofRuns_blank h hb] at hm
    obtain ⟨before, after, c, rest, hrun⟩ := ih lexeme hm
    exact ⟨_, after, c, rest, hrun.cons⟩
  case token =>
    intro first others behind position kind h hb hf ih lexeme hm
    rw [ofRuns_token hb hf] at hm
    rcases List.mem_cons.mp hm with rfl | hm
    · exact ⟨[], behind, first, others, ⟨rfl, rfl, rfl, hf⟩⟩
    · obtain ⟨before, after, c, rest, hrun⟩ := ih lexeme hm
      exact ⟨_, after, c, rest, hrun.cons⟩
  case illegal =>
    intro first others behind position h hb hf lexeme hm
    rw [ofRuns_illegal hb hf] at hm
    cases hm

/-! ## The place of a token -/

/-- A number or an identifier ends where its class does, on both sides. -/
theorem bounds_of_run {before : List (List Char)} {kind : TokenKind}
    (h : AreRuns (before ++ (first :: others) :: behind))
    (hk : kind = .number ∨ kind = .identifier) (hf : kind.Admits first = true) :
    (∀ c ∈ before.flatten.getLast?, kind.Admits c = false) ∧
      ∀ c ∈ behind.flatten.head?, kind.Admits c = false := by
  constructor
  · intro c hc
    rcases List.eq_nil_or_concat before with rfl | ⟨front, run, rfl⟩
    · cases hc
    · rw [List.concat_eq_append, List.append_assoc] at h
      have hlast : c ∈ run.getLast? := by
        rwa [List.concat_eq_append, List.flatten_append, List.flatten_singleton,
          List.getLast?_append_of_ne_nil _ h.right.ne_nil] at hc
      have hseam := h.right.seam c hlast first rfl
      by_contra hne
      rw [joined_of_admits hk (by simpa using hne), hf] at hseam
      cases hseam
  · intro c hc
    have hall := h.right.all_of_head hk hf
    have hlast := List.getLast_mem (List.cons_ne_nil first others)
    rw [← joined_of_admits hk (hall _ hlast)]
    exact h.right.seam _ (List.getLast?_eq_some_getLast (List.cons_ne_nil first others)) c hc

theorem standsIn_of_mem (h : AreRuns row) {lexeme : Lexeme}
    (hm : lexeme ∈ (ofRuns 0 row).lexemes) : lexeme.token.StandsIn row.flatten := by
  obtain ⟨before, behind, first, others, rfl, hc, hp, hf⟩ := mem_ofRuns h 0 lexeme hm
  obtain ⟨⟨kind, content, position⟩, opens⟩ := lexeme
  dsimp only at hc hp hf ⊢
  subst hc hp
  have hadmits := ofFirst?_eq_some_iff.mp hf
  refine ⟨before.flatten, behind.flatten, ?_, (Nat.zero_add _).symm, List.cons_ne_nil _ _,
    admits_of_run h.right hf, ?_⟩
  · rw [List.flatten_append, List.flatten_cons, List.append_assoc]
  · cases kind with
    | number => exact bounds_of_run h (.inl rfl) hadmits
    | identifier => exact bounds_of_run h (.inr rfl) hadmits
    | operator =>
      rw [h.right.others_eq_nil (alone_of_admits (.inl rfl) hadmits)]
      rfl
    | punctuation =>
      rw [h.right.others_eq_nil (alone_of_admits (.inr rfl) hadmits)]
      rfl

theorem le_position_of_mem (h : AreRuns row) {lexeme : Lexeme}
    (hm : lexeme ∈ (ofRuns position row).lexemes) : position ≤ lexeme.token.position := by
  obtain ⟨before, behind, first, others, hrun⟩ := mem_ofRuns h position lexeme hm
  exact hrun.position ▸ Nat.le_add_right position _

theorem pairwise_ofRuns (h : AreRuns row) (position : Nat) :
    (ofRuns position row).lexemes.Pairwise fun lexeme next =>
      lexeme.token.stop ≤ next.token.position := by
  refine ofRuns_induction ?nil ?blank ?token ?illegal h position
  case nil => exact fun _ => .nil
  case blank =>
    intro first others behind position h hb ih
    rwa [ofRuns_blank h hb]
  case token =>
    intro first others behind position kind h hb hf ih
    rw [ofRuns_token hb hf]
    exact List.pairwise_cons.mpr ⟨fun next hn => le_position_of_mem h.tail hn, ih⟩
  case illegal =>
    intro first others behind position h hb hf
    rw [ofRuns_illegal hb hf]
    exact .nil

/-! ## The end of a stream -/

/-- How a stream ends whose text begins at a position: with the text, or at its first illegal
character. -/
inductive Ends (text : List Char) (position : Nat) : Option Failure → Prop
  | complete (legal : ∀ c ∈ text, Legal c) : Ends text position none
  | failing {before behind : List Char} {c : Char} (split : text = before ++ c :: behind)
      (legal : ∀ b ∈ before, Legal b) (illegal : ¬ Legal c) :
      Ends text position (some (.invalidCharacter c (position + before.length)))

theorem Ends.append {text run : List Char} {ending : Option Failure} (hrun : ∀ c ∈ run, Legal c)
    (h : Ends text (position + run.length) ending) : Ends (run ++ text) position ending := by
  cases h with
  | complete hall => exact .complete fun c hc => (List.mem_append.mp hc).elim (hrun c) (hall c)
  | @failing before behind c hs hall hc =>
    have hsplit : run ++ text = (run ++ before) ++ c :: behind := by rw [hs, List.append_assoc]
    have hlegal : ∀ b ∈ run ++ before, Legal b :=
      fun b hb => (List.mem_append.mp hb).elim (hrun b) (hall b)
    rw [Nat.add_assoc, ← List.length_append]
    exact .failing hsplit hlegal hc

theorem ends_ofRuns (h : AreRuns row) (position : Nat) :
    Ends row.flatten position (ofRuns position row).ending := by
  refine ofRuns_induction ?nil ?blank ?token ?illegal h position
  case nil => exact fun _ => .complete nofun
  case blank =>
    intro first others behind position h hb ih
    rw [ofRuns_blank h hb, List.flatten_cons]
    refine .append ?_ ih
    rw [h.others_eq_nil (alone_of_isBlank hb)]
    simpa using legal_of_isBlank hb
  case token =>
    intro first others behind position kind h hb hf ih
    rw [ofRuns_token hb hf, List.flatten_cons]
    exact .append (fun c hc => legal_of_admits (admits_of_run h hf c hc)) ih
  case illegal =>
    intro first others behind position h hb hf
    rw [ofRuns_illegal hb hf]
    have hsplit : ((first :: others) :: behind).flatten =
        [] ++ first :: (others ++ behind.flatten) := by
      rw [List.flatten_cons, List.cons_append, List.nil_append]
    exact .failing hsplit nofun (not_legal hb hf)

theorem le_reach (h : AreRuns row) (position : Nat) :
    position ≤ (ofRuns position row).reach (position + row.flatten.length) := by
  have hends := ends_ofRuns h position
  rw [reach]
  generalize (ofRuns position row).ending = ending at hends ⊢
  cases hends with
  | complete => exact Nat.le_add_right _ _
  | failing => exact Nat.le_add_right _ _

theorem length_flatten_cons (run : List Char) (behind : List (List Char)) (position : Nat) :
    position + (run :: behind).flatten.length = position + run.length + behind.flatten.length := by
  rw [List.flatten_cons, List.length_append, Nat.add_assoc]

theorem stop_le_reach (h : AreRuns row) (position : Nat) :
    ∀ lexeme ∈ (ofRuns position row).lexemes,
      lexeme.token.stop ≤ (ofRuns position row).reach (position + row.flatten.length) := by
  refine ofRuns_induction ?nil ?blank ?token ?illegal h position
  case nil => exact fun _ _ hm => nomatch hm
  case blank =>
    intro first others behind position h hb ih
    rwa [ofRuns_blank h hb, length_flatten_cons]
  case token =>
    intro first others behind position kind h hb hf ih lexeme hm
    rw [ofRuns_token hb hf] at hm ⊢
    rw [length_flatten_cons]
    rcases List.mem_cons.mp hm with rfl | hm
    · exact le_reach h.tail _
    · exact ih lexeme hm
  case illegal =>
    intro first others behind position h hb hf lexeme hm
    rw [ofRuns_illegal hb hf] at hm
    cases hm

/-! ## The blanks between the tokens -/

theorem getElem?_flatten_cons {run : List Char} {place : Nat} {c : Char}
    (h : (run :: behind).flatten[place]? = some c) :
    place < run.length ∧ c ∈ run ∨
      ∃ rest, place = run.length + rest ∧ behind.flatten[rest]? = some c := by
  rw [List.flatten_cons] at h
  by_cases hp : place < run.length
  · rw [List.getElem?_append_left hp] at h
    exact .inl ⟨hp, List.mem_of_getElem? h⟩
  · rw [Nat.not_lt] at hp
    rw [List.getElem?_append_right hp] at h
    exact .inr ⟨place - run.length, (Nat.add_sub_cancel' hp).symm, h⟩

/-- The induction is on the runs: a place is in the first run, or in one behind it. -/
theorem covered_or_blank (h : AreRuns row) (position : Nat) :
    ∀ place c, row.flatten[place]? = some c →
      position + place < (ofRuns position row).reach (position + row.flatten.length) →
      (∃ lexeme ∈ (ofRuns position row).lexemes,
        lexeme.token.position ≤ position + place ∧ position + place < lexeme.token.stop) ∨
        isBlank c := by
  refine ofRuns_induction ?nil ?blank ?token ?illegal h position
  case nil => exact fun _ _ _ hc => nomatch hc
  case blank =>
    intro first others behind position h hb ih place c hc hp
    rw [ofRuns_blank h hb] at hp ⊢
    rw [length_flatten_cons] at hp
    rcases getElem?_flatten_cons hc with ⟨-, hrun⟩ | ⟨rest, rfl, hrest⟩
    · rw [h.others_eq_nil (alone_of_isBlank hb), List.mem_singleton] at hrun
      exact .inr (hrun ▸ hb)
    · rw [← Nat.add_assoc] at hp ⊢
      exact ih rest c hrest hp
  case token =>
    intro first others behind position kind h hb hf ih place c hc hp
    rw [ofRuns_token hb hf] at hp ⊢
    rw [length_flatten_cons] at hp
    rcases getElem?_flatten_cons hc with ⟨hplace, -⟩ | ⟨rest, rfl, hrest⟩
    · exact .inl ⟨_, List.mem_cons_self, Nat.le_add_right _ _, Nat.add_lt_add_left hplace _⟩
    · rw [← Nat.add_assoc] at hp ⊢
      rcases ih rest c hrest hp with ⟨lexeme, hm, hle, hlt⟩ | hblank
      · exact .inl ⟨lexeme, List.mem_cons_of_mem _ hm, hle, hlt⟩
      · exact .inr hblank
  case illegal =>
    intro first others behind position h hb hf place c hc hp
    rw [ofRuns_illegal hb hf] at hp
    exact absurd hp (Nat.not_lt.mpr (Nat.le_add_right _ _))

/-- Two splits of a text at its first illegal character are the same. -/
theorem first_illegal_unique {before rest front last : List Char} {c d : Char}
    (h : before ++ c :: rest = front ++ d :: last) (hb : ∀ b ∈ before, Legal b) (hc : ¬ Legal c)
    (hfront : ∀ b ∈ front, Legal b) (hd : ¬ Legal d) : before = front ∧ c = d := by
  rcases List.append_eq_append_iff.mp h with ⟨middle, rfl, hm⟩ | ⟨middle, rfl, hm⟩
  · rcases middle with _ | ⟨b, middle⟩
    · exact ⟨(List.append_nil _).symm, (List.cons.inj hm).1⟩
    · cases hm
      exact absurd (hfront c (by simp)) hc
  · rcases middle with _ | ⟨b, middle⟩
    · exact ⟨List.append_nil _, (List.cons.inj hm).1.symm⟩
    · cases hm
      exact absurd (hb d (by simp)) hd

section Ends

variable {text : List Char} {ending : Option Failure}

theorem not_all_legal {before behind : List Char} {c : Char} (hs : text = before ++ c :: behind)
    (hc : ¬ Legal c) : ¬ ∀ d ∈ text, Legal d := by
  intro hall
  refine hc (hall c ?_)
  rw [hs]
  exact List.mem_append_right _ List.mem_cons_self

theorem Ends.eq_none_iff (h : Ends text position ending) :
    ending = none ↔ ∀ c ∈ text, Legal c := by
  cases h with
  | complete hall => exact ⟨fun _ => hall, fun _ => rfl⟩
  | failing hs _ hc => exact ⟨nofun, fun hall => absurd hall (not_all_legal hs hc)⟩

theorem Ends.eq_some_iff (h : Ends text position ending) (failure : Failure) :
    ending = some failure ↔
      ∃ before c behind, text = before ++ c :: behind ∧ (∀ b ∈ before, Legal b) ∧ ¬ Legal c ∧
        failure = .invalidCharacter c (position + before.length) := by
  cases h with
  | complete hall =>
    constructor
    · nofun
    · rintro ⟨before, c, behind, hs, -, hc, -⟩
      exact absurd hall (not_all_legal hs hc)
  | @failing before behind c hs hlegal hc =>
    constructor
    · intro he
      cases he
      exact ⟨before, c, behind, hs, hlegal, hc, rfl⟩
    · rintro ⟨front, d, last, ht, hfront, hd, rfl⟩
      obtain ⟨rfl, rfl⟩ := first_illegal_unique (hs.symm.trans ht) hlegal hc hfront hd
      rfl

end Ends

/-- The scan of a text delivers its tokens, each with its own characters at its place, in order and
with blanks between them. It comes to the end of the text exactly if all characters are legal,
and fails at the first that is not. -/
theorem ofString_tiles (text : String) : (ofString text).Tiles text.toList := by
  have h := areRuns_runs text.toList
  have hends := ends_ofRuns h 0
  have hwithin := stop_le_reach h 0
  have hcovered := covered_or_blank h 0
  rw [ofString_eq_ofRuns]
  rw [flatten_runs] at hends hwithin hcovered
  simp only [Nat.zero_add] at hwithin hcovered
  constructor
  case tokens => exact fun lexeme hm => flatten_runs text.toList ▸ standsIn_of_mem h hm
  case inOrder => exact pairwise_ofRuns h 0
  case within => exact hwithin
  case blanks => exact hcovered
  case complete => exact hends.eq_none_iff
  case failing =>
    intro failure
    rw [hends.eq_some_iff]
    simp only [Nat.zero_add]

end TokenStream

end Calculator
