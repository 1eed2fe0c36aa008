import Calculator.Proofs.Token.Spacing

/-!
# Writing tokens

Words are written one after the other, with blanks before, between and behind them. Where
blanks keep two numbers and two identifiers apart, the scan of the text gives the words
back: their kinds and contents in order, each at the place where it was written.
-/
namespace Calculator

open Text TokenKind

/-- What one token is written as. -/
inductive Word where
  | number (digits : List Char) (nonempty : digits ≠ []) (numeric : ∀ c ∈ digits, isNumeric c)
  | identifier (letters : List Char) (nonempty : letters ≠ [])
      (alphabetic : ∀ c ∈ letters, isAlphabetic c)
  | operation (operator : Operator)
  | opening
  | closing

namespace Word

def kind : Word → TokenKind
  | number .. => .number
  | identifier .. => .identifier
  | operation _ => .operator
  | opening | closing => .punctuation

def content : Word → List Char
  | number digits .. => digits
  | identifier letters .. => letters
  | operation op => [op.symbol]
  | opening => ['(']
  | closing => [')']

theorem content_ne_nil (word : Word) : word.content ≠ [] := by
  cases word with
  | number digits hne _ => exact hne
  | identifier letters hne _ => exact hne
  | operation operator => exact List.cons_ne_nil _ _
  | opening => exact List.cons_ne_nil _ _
  | closing => exact List.cons_ne_nil _ _

theorem admits (word : Word) : ∀ c ∈ word.content, word.kind.Admits c = true := by
  cases word with
  | number digits _ h => exact h
  | identifier letters _ h => exact h
  | operation operator =>
    simpa [content, kind] using ofFirst?_eq_some_iff.mp (ofFirst?_symbol operator)
  | opening => exact List.forall_mem_singleton.mpr (by decide)
  | closing => exact List.forall_mem_singleton.mpr (by decide)

theorem runs_content (word : Word) : runs word.content = [word.content] := by
  cases word with
  | number digits hne h => exact runs_of_admits (.inl rfl) hne h
  | identifier letters hne h => exact runs_of_admits (.inr rfl) hne h
  | operation operator => exact runs_singleton _
  | opening => exact runs_singleton _
  | closing => exact runs_singleton _

/-- The class of the characters tells an opening parenthesis from all other words. -/
theorem content_eq_opening_iff (word : Word) : word.content = ['('] ↔ word = .opening := by
  constructor
  · intro h
    have hadmits : word.kind.Admits '(' = true := word.admits '(' (h ▸ List.mem_cons_self)
    have hkind : word.kind = .punctuation := admits_unique hadmits (by decide)
    cases word with
    | opening => rfl
    | closing => exact absurd h (by decide)
    | number => cases hkind
    | identifier => cases hkind
    | operation => cases hkind
  · rintro rfl
    rfl

end Word

/-- A word with the blanks that are written before it. -/
structure SpacedWord where
  blanks : List Char
  word : Word
  areBlank : ∀ c ∈ blanks, isBlank c

namespace SpacedWord

def text (spaced : SpacedWord) : List Char :=
  spaced.blanks ++ spaced.word.content

/-- The runs of a word and of its blanks. -/
def row (spaced : SpacedWord) : List (List Char) :=
  spaced.blanks.map ([·]) ++ [spaced.word.content]

/-- Two numbers, and two identifiers, have blanks between them. -/
def Apart (spaced next : SpacedWord) : Prop :=
  spaced.word.kind = next.word.kind →
    spaced.word.kind = .number ∨ spaced.word.kind = .identifier → next.blanks ≠ []

/-- The next word is an opening parenthesis without blanks before it. -/
def Opens (rest : List SpacedWord) : Prop :=
  ∃ next ∈ rest.head?, next.blanks = [] ∧ next.word = .opening

end SpacedWord

/-- Words to be written, and the blanks behind the last of them. -/
structure Writing where
  words : List SpacedWord
  last : List Char
  apart : words.IsChain SpacedWord.Apart
  areBlank : ∀ c ∈ last, isBlank c

/-- The characters that some words are written with. -/
def SpacedWord.written (words : List SpacedWord) : List Char :=
  words.flatMap text

def Writing.text (writing : Writing) : String :=
  String.ofList (SpacedWord.written writing.words ++ writing.last)

/-! ## The runs of a writing -/

/-- Characters of different classes, and two that stand alone, are not joined. -/
theorem joined_eq_false_of_admits {a b : Char} {kind other : TokenKind}
    (ha : kind.Admits a = true) (hb : other.Admits b = true)
    (h : kind = other → kind ≠ .number ∧ kind ≠ .identifier) : joined a b = false := by
  have hlong : kind = .number ∨ kind = .identifier → joined a b = false := by
    intro hk
    have hne : kind ≠ other := by
      intro he
      obtain ⟨hn, hi⟩ := h he
      exact hk.elim hn hi
    rw [joined_of_admits hk ha]
    exact admits_eq_false hb kind hne
  cases kind with
  | number => exact hlong (.inl rfl)
  | identifier => exact hlong (.inr rfl)
  | operator => exact joined_of_alone_left (alone_of_admits (.inl rfl) ha)
  | punctuation => exact joined_of_alone_left (alone_of_admits (.inr rfl) ha)

namespace SpacedWord

variable {words rest : List SpacedWord} {last : List Char}

theorem joined_of_isBlank {a b : Char} {blanks behind : List Char} (hne : blanks ≠ [])
    (hblanks : ∀ c ∈ blanks, isBlank c) (hb : b ∈ (blanks ++ behind).head?) :
    joined a b = false := by
  rw [List.head?_append_of_ne_nil _ hne] at hb
  exact joined_of_alone_right (alone_of_isBlank (hblanks b (List.mem_of_mem_head? hb)))

/-- A word is not joined to what is written behind it. -/
theorem seam {spaced : SpacedWord} (h : (spaced :: rest).IsChain Apart)
    (hlast : ∀ c ∈ last, isBlank c) :
    ∀ a ∈ spaced.word.content.getLast?, ∀ b ∈ (written rest ++ last).head?,
      joined a b = false := by
  intro a ha b hb
  have hadmits := spaced.word.admits a (List.mem_of_mem_getLast? ha)
  rcases rest with _ | ⟨next, rest⟩
  · have hm : b ∈ last := List.mem_of_mem_head? hb
    exact joined_of_alone_right (alone_of_isBlank (hlast b hm))
  · rw [written, List.flatMap_cons, text, List.append_assoc, List.append_assoc] at hb
    rcases hblanks : next.blanks with _ | ⟨blank, blanks⟩
    · rw [hblanks, List.nil_append,
        List.head?_append_of_ne_nil _ next.word.content_ne_nil] at hb
      refine joined_eq_false_of_admits hadmits (next.word.admits b (List.mem_of_mem_head? hb)) ?_
      intro hkind
      have hne := (List.isChain_cons_cons.mp h).1 hkind
      exact ⟨fun hk => hne (.inl hk) hblanks, fun hk => hne (.inr hk) hblanks⟩
    · exact joined_of_isBlank (hblanks ▸ List.cons_ne_nil blank blanks) next.areBlank hb

/-- The induction is on the words: each is one run, behind its blanks one by one. -/
theorem runs_written (h : words.IsChain Apart) (hlast : ∀ c ∈ last, isBlank c) :
    runs (written words ++ last) = words.flatMap row ++ last.map ([·]) := by
  induction words with
  | nil =>
    have hruns := runs_blanks_append hlast []
    rwa [List.append_nil, show runs [] = [] from rfl, List.append_nil] at hruns
  | cons spaced rest ih =>
    have hword : runs (spaced.word.content ++ (written rest ++ last)) =
        spaced.word.content :: runs (written rest ++ last) := by
      rw [runs_append (seam h hlast), spaced.word.runs_content]
      rfl
    rw [written, List.flatMap_cons, text, List.append_assoc, List.append_assoc,
      runs_blanks_append spaced.areBlank]
    change _ ++ runs (_ ++ (written rest ++ last)) = _
    rw [hword, ih h.tail, List.flatMap_cons, row, List.append_assoc, List.append_assoc]
    rfl

theorem head?_row_eq_iff (hlast : ∀ c ∈ last, isBlank c) (words : List SpacedWord) :
    (words.flatMap row ++ last.map ([·])).head? = some ['('] ↔ Opens words := by
  have hnone : ∀ c, isBlank c → [c] ≠ ['('] := by
    rintro c hc ⟨⟩
    exact absurd hc (by decide)
  rcases words with _ | ⟨next, rest⟩
  · constructor
    · intro h
      rw [List.flatMap_nil, List.nil_append, List.head?_map, Option.map_eq_some_iff] at h
      obtain ⟨c, hc, he⟩ := h
      exact absurd he (hnone c (hlast c (List.mem_of_mem_head? hc)))
    · rintro ⟨next, ⟨⟩, -⟩
  · rw [List.flatMap_cons, row, Opens, List.head?_cons]
    rcases hblanks : next.blanks with _ | ⟨blank, blanks⟩
    · simpa [hblanks] using next.word.content_eq_opening_iff
    · have hne := hnone blank (next.areBlank blank (hblanks ▸ List.mem_cons_self))
      simpa [hblanks] using hne

end SpacedWord

/-! ## The tokens of a writing -/

namespace TokenStream

variable {words rest : List SpacedWord} {position : Nat} {stream : TokenStream}

/-- A stream delivers exactly the words that are written from a position on, and no failure. -/
structure Delivers (position : Nat) (words : List SpacedWord) (stream : TokenStream) : Prop where
  ending : stream.ending = none
  count : stream.lexemes.length = words.length
  tokens : ∀ front spaced rest, words = front ++ spaced :: rest →
    ∃ lexeme, stream.lexemes[front.length]? = some lexeme ∧
      lexeme.token = ⟨spaced.word.kind, spaced.word.content,
        position + (SpacedWord.written front).length + spaced.blanks.length⟩ ∧
      (lexeme.opens = true ↔ SpacedWord.Opens rest)

theorem Delivers.cons {spaced : SpacedWord} {lexeme : Lexeme}
    (htoken : lexeme.token =
      ⟨spaced.word.kind, spaced.word.content, position + spaced.blanks.length⟩)
    (hopens : lexeme.opens = true ↔ SpacedWord.Opens rest)
    (h : stream.Delivers (position + spaced.text.length) rest) :
    (stream.cons lexeme).Delivers position (spaced :: rest) where
  ending := h.ending
  count := congrArg (· + 1) h.count
  tokens := by
    intro front word behind hsplit
    rcases front with _ | ⟨first, front⟩
    · cases hsplit
      exact ⟨lexeme, rfl, htoken, hopens⟩
    · obtain ⟨rfl, hrest⟩ := List.cons.inj hsplit
      obtain ⟨other, hother, hplace, hopen⟩ := h.tokens front word behind hrest
      refine ⟨other, hother, ?_, hopen⟩
      rw [hplace, SpacedWord.written, SpacedWord.written, List.flatMap_cons, List.length_append,
        Nat.add_assoc position]

theorem ofRuns_word (word : Word) (behind : List (List Char)) (position : Nat) :
    ofRuns position (word.content :: behind) =
      (ofRuns (position + word.content.length) behind).cons
        ⟨⟨word.kind, word.content, position⟩, behind.head? = some ['(']⟩ := by
  obtain ⟨first, others, hcontent⟩ := List.exists_cons_of_ne_nil word.content_ne_nil
  have hadmits := word.admits first (hcontent ▸ List.mem_cons_self)
  rw [hcontent]
  exact ofRuns_token (not_isBlank_of_admits hadmits) (ofFirst?_eq_some_iff.mpr hadmits) position

/-- The induction is on the words, each with the row of runs behind it. -/
theorem delivers_ofRuns {last : List Char} (hlast : ∀ c ∈ last, isBlank c)
    (words : List SpacedWord) (position : Nat) :
    (ofRuns position (words.flatMap SpacedWord.row ++ last.map ([·]))).Delivers position words := by
  induction words generalizing position with
  | nil =>
    have hrow := ofRuns_blanks hlast [] position
    rw [List.append_nil] at hrow
    rw [List.flatMap_nil, List.nil_append, hrow]
    exact ⟨rfl, rfl, fun front spaced rest h => absurd h (by simp)⟩
  | cons spaced rest ih =>
    rw [List.flatMap_cons, SpacedWord.row, List.append_assoc, List.append_assoc,
      ofRuns_blanks spaced.areBlank, List.singleton_append, ofRuns_word]
    refine .cons rfl ?_ ?_
    · exact decide_eq_true_iff.trans (SpacedWord.head?_row_eq_iff hlast rest)
    · rw [Nat.add_assoc, ← List.length_append]
      exact ih _

/-- The scan of written words delivers these words, each with its kind at the place where it
stands. A parenthesis follows a word immediately exactly if it is the next word, without blanks
before it. -/
theorem ofString_written (writing : Writing) :
    (ofString writing.text).Delivers 0 writing.words := by
  have hruns := SpacedWord.runs_written writing.apart writing.areBlank
  rw [ofString_eq_ofRuns, Writing.text, String.toList_ofList, hruns]
  exact delivers_ofRuns writing.areBlank writing.words 0

example : Writing.text
    { words := [⟨[' '], .identifier ['π'] nofun (List.forall_mem_singleton.mpr (by decide)),
          List.forall_mem_singleton.mpr (by decide)⟩,
        ⟨[], .operation .addition, nofun⟩, ⟨[], .opening, nofun⟩]
      last := ['\t']
      apart := by simp [SpacedWord.Apart, Word.kind]
      areBlank := List.forall_mem_singleton.mpr (by decide) } = " π+(\t" := by
  rfl

end TokenStream

end Calculator
