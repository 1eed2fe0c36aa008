import Calculator.Proofs.Token.Scanning

/-!
# Calls on a cursor

A cursor can be called in any order, also after a failure. It always stands between two
characters of its text. An advance that fails passes nothing but blanks, and all further
ones fail in the same way; at the end of the text all further ones find no token. Every
token that is delivered takes a part of the text.
-/
namespace Calculator

open Text TokenKind

namespace Cursor

/-- What can be called on a cursor. -/
inductive Call where
  | advance
  | current
  | isBefore (c : Char)

/-- The cursor after a call. Only an advance moves it, one that fails included. -/
def after (cursor : Cursor) : Call → Cursor
  | .advance => cursor.advance.1
  | .current | .isBefore _ => cursor

def afterAll (cursor : Cursor) (calls : List Call) : Cursor :=
  calls.foldl after cursor

/-- The tokens that some calls deliver: one with each advance that finds one. -/
def delivered (cursor : Cursor) : List Call → List Token
  | [] => []
  | .advance :: calls =>
    match cursor.advance with
    | (next, none) => next.current.toList ++ next.delivered calls
    | (next, some _) => next.delivered calls
  | .current :: calls | .isBefore _ :: calls => cursor.delivered calls

/-- The cursor stands in a text between two characters, and counts the bytes and the characters
before it. -/
def Between (text : String) (cursor : Cursor) : Prop :=
  ∃ before behind : String, text = before ++ behind ∧ behind.toList = cursor.rest ∧
    cursor.offset = before.utf8ByteSize ∧ cursor.position = before.length

/-- What holds of the cursor of a text before a call. -/
structure Sound (text : String) (cursor : Cursor) : Prop where
  /-- An advance cuts the text between characters only: where it begins, behind the blanks and where
  it ends. -/
  boundaries : ∀ place ∈ [cursor, cursor.passBlanks, cursor.advance.1],
    place.Between text ∧ String.Pos.Raw.IsValid text ⟨place.offset⟩
  forward : cursor.offset ≤ cursor.passBlanks.offset ∧
    cursor.passBlanks.offset ≤ cursor.advance.1.offset
  /-- An advance that fails keeps the token and passes blanks. Whatever is called then, the next
  advance fails at the same character in the same place. -/
  failing : ∀ next failure, cursor.advance = (next, some failure) →
    next.current = cursor.current ∧
    (∃ blanks, cursor.rest = blanks ++ next.rest ∧ ∀ c ∈ blanks, isBlank c) ∧
    (∃ c, next.rest.head? = some c ∧ failure = .invalidCharacter c next.position) ∧
    ∀ calls, (next.afterAll calls).advance = (next, some failure)
  ended : cursor.current = none →
    ∀ calls, (cursor.afterAll calls).current = none ∧ (cursor.afterAll calls).advance.2 = none
  /-- A token is what lies behind the blanks and before the end of its advance. -/
  delivering : ∀ next token, cursor.advance = (next, none) → next.current = some token →
    cursor.offset < next.offset ∧ cursor.passBlanks.rest = token.content ++ next.rest

/-! ## Passing characters -/

theorem byteCount_eq (characters : List Char) :
    byteCount characters = (String.ofList characters).utf8ByteSize := by
  induction characters with
  | nil => rfl
  | cons c characters ih =>
    rw [byteCount_cons, String.ofList_cons, String.utf8ByteSize_append,
      String.utf8ByteSize_singleton, ih]

theorem byteCount_pos {characters : List Char} (h : characters ≠ []) : 0 < byteCount characters := by
  obtain ⟨c, rest, rfl⟩ := List.exists_cons_of_ne_nil h
  rw [byteCount_cons]
  exact Nat.add_pos_left c.utf8Size_pos _

section Between

variable {text : String} {cursor : Cursor}

theorem between_start (text : String) : (start text).Between text :=
  ⟨"", text, by simp, rfl, rfl, rfl⟩

/-- Characters that come next are passed as a whole. -/
theorem Between.pass (h : cursor.Between text) {characters : List Char}
    (hc : characters <+: cursor.rest) : (cursor.pass characters).Between text := by
  obtain ⟨before, behind, rfl, hrest, hoffset, hposition⟩ := h
  obtain ⟨rest, hsplit⟩ := hc
  have hbehind : behind = String.ofList characters ++ String.ofList rest := by
    rw [← String.ofList_append, hsplit, ← hrest, String.ofList_toList]
  refine ⟨before ++ String.ofList characters, String.ofList rest, ?_, ?_, ?_, ?_⟩
  · rw [hbehind, String.append_assoc]
  · rw [String.toList_ofList, Cursor.pass, ← hsplit, List.drop_left]
  · rw [String.utf8ByteSize_append, ← byteCount_eq, ← hoffset]
    rfl
  · rw [String.length_append, String.length_ofList, ← hposition]
    rfl

theorem Between.passBlanks (h : cursor.Between text) : cursor.passBlanks.Between text :=
  h.pass (List.takeWhile_prefix _)

theorem Between.boundary (h : cursor.Between text) :
    String.Pos.Raw.IsValid text ⟨cursor.offset⟩ := by
  obtain ⟨before, behind, rfl, -, hoffset, -⟩ := h
  rw [String.Pos.Raw.isValid_iff_exists_append]
  exact ⟨before, behind, rfl, congrArg String.Pos.Raw.mk hoffset⟩

end Between

theorem blanks_append_rest (cursor : Cursor) :
    cursor.rest.takeWhile isBlank ++ cursor.passBlanks.rest = cursor.rest :=
  List.prefix_iff_eq_append.mp (List.takeWhile_prefix _)

theorem rest_passBlanks (cursor : Cursor) :
    cursor.passBlanks.rest = cursor.rest.dropWhile isBlank := by
  have hdrop : cursor.rest.takeWhile isBlank ++ cursor.rest.dropWhile isBlank = cursor.rest :=
    List.takeWhile_append_dropWhile
  exact List.append_cancel_left ((blanks_append_rest cursor).trans hdrop.symm)

/-- Behind the blanks there are none. -/
theorem passBlanks_passBlanks (cursor : Cursor) :
    cursor.passBlanks.passBlanks = cursor.passBlanks := by
  refine passBlanks_eq_self fun c hc => ?_
  have hhead := List.head?_dropWhile_not isBlank cursor.rest
  rw [← rest_passBlanks, Option.mem_def.mp hc] at hhead
  simpa using hhead

/-! ## One advance -/

/-- Where an advance leads: to the end of the text, behind a token, or before a character that begins
no token. -/
inductive Moves (cursor : Cursor) : Cursor → Option Failure → Prop
  | ends (rest : cursor.passBlanks.rest = []) :
      Moves cursor { cursor.passBlanks with current := none } none
  | delivers {first : Char} {rest : List Char} {kind : TokenKind}
      (text : cursor.passBlanks.rest = first :: rest) (begins : ofFirst? first = some kind) :
      Moves cursor
        { cursor.passBlanks.pass (kind.front (first :: rest)) with
          current := some ⟨kind, kind.front (first :: rest), cursor.passBlanks.position⟩ } none
  | fails {first : Char} {rest : List Char} (text : cursor.passBlanks.rest = first :: rest)
      (begins : ofFirst? first = none) :
      Moves cursor cursor.passBlanks (some (.invalidCharacter first cursor.passBlanks.position))

theorem moves_of_advance {cursor next : Cursor} {failure : Option Failure}
    (h : cursor.advance = (next, failure)) : cursor.Moves next failure := by
  rw [advance] at h
  dsimp only at h
  cases ht : cursor.passBlanks.rest with
  | nil =>
    rw [token?, ht] at h
    cases h
    rw [← ht]
    exact .ends ht
  | cons first rest =>
    rw [token?, ht] at h
    dsimp only at h
    cases hf : ofFirst? first with
    | some kind =>
      rw [hf] at h
      cases h
      exact .delivers ht hf
    | none =>
      rw [hf] at h
      obtain ⟨rfl, rfl⟩ := Prod.mk.inj h
      exact .fails ht hf

theorem moves_advance (cursor : Cursor) : cursor.Moves cursor.advance.1 cursor.advance.2 :=
  moves_of_advance rfl

theorem isPrefix_front (kind : TokenKind) (text : List Char) : kind.front text <+: text := by
  cases kind with
  | number => exact List.takeWhile_prefix _
  | identifier => exact List.takeWhile_prefix _
  | operator => exact List.take_prefix 1 text
  | punctuation => exact List.take_prefix 1 text

namespace Moves

variable {text : String} {cursor next : Cursor} {failure : Option Failure}

theorem between (h : cursor.Moves next failure) (hb : cursor.Between text) : next.Between text := by
  cases h with
  | ends rest => exact hb.passBlanks
  | delivers ht hf => exact hb.passBlanks.pass (ht ▸ isPrefix_front _ _)
  | fails ht hf => exact hb.passBlanks

theorem offset_le (h : cursor.Moves next failure) : cursor.passBlanks.offset ≤ next.offset := by
  cases h with
  | ends rest => exact Nat.le_refl _
  | delivers ht hf => exact Nat.le_add_right _ _
  | fails ht hf => exact Nat.le_refl _

end Moves

theorem offset_passBlanks_le (cursor : Cursor) : cursor.offset ≤ cursor.passBlanks.offset :=
  Nat.le_add_right _ _

/-- A token takes its own characters of the text, and they have at least one byte. -/
theorem Moves.delivering {cursor next : Cursor} {token : Token} (h : cursor.Moves next none)
    (hd : next.current = some token) :
    cursor.offset < next.offset ∧ cursor.passBlanks.rest = token.content ++ next.rest := by
  cases h with
  | ends rest => cases hd
  | @delivers first rest kind ht hf =>
    cases hd
    have hpos : 0 < byteCount (kind.front (first :: rest)) := byteCount_pos (front_ne_nil rest hf)
    constructor
    · exact Nat.lt_of_le_of_lt (offset_passBlanks_le cursor) (Nat.lt_add_of_pos_right hpos)
    · rw [pass, ht]
      exact (List.prefix_iff_eq_append.mp (isPrefix_front kind (first :: rest))).symm

/-! ## Calls without effect -/

/-- Where an advance leaves the cursor, all calls do. -/
theorem afterAll_eq_self {cursor : Cursor} (h : cursor.advance.1 = cursor) (calls : List Call) :
    cursor.afterAll calls = cursor := by
  induction calls with
  | nil => rfl
  | cons call calls ih =>
    have hcall : cursor.after call = cursor := by
      cases call with
      | advance => exact h
      | current => rfl
      | isBefore c => rfl
    rw [afterAll, List.foldl_cons, hcall]
    exact ih

/-- A cursor before a character that begins no token stays there. -/
theorem advance_of_failed {cursor next : Cursor} {failure : Failure}
    (h : cursor.advance = (next, some failure)) : next.advance = (next, some failure) := by
  cases moves_of_advance h with
  | fails ht hf =>
    rw [advance, passBlanks_passBlanks, token?, ht]
    simp only [hf]

/-- The text has come to its end when no token is current. -/
def Settled (cursor : Cursor) : Prop :=
  cursor.current = none → cursor.rest = []

theorem Moves.settled {cursor next : Cursor} {failure : Option Failure}
    (h : cursor.Moves next failure) (hs : failure ≠ none → cursor.Settled) : next.Settled := by
  intro hn
  cases h with
  | ends rest => exact rest
  | delivers ht hf => cases hn
  | fails ht hf =>
    have hrest := hs nofun hn
    rw [rest_passBlanks, hrest] at ht
    cases ht

theorem advance_of_ended {cursor : Cursor} (hs : cursor.Settled) (hn : cursor.current = none) :
    cursor.advance = (cursor, none) := by
  have hrest := hs hn
  obtain ⟨rest, offset, position, current⟩ := cursor
  cases hn
  cases hrest
  rfl

/-! ## Any calls -/

/-- Each call keeps the cursor between two characters, and settled once it is. -/
theorem between_afterAll {text : String} (calls : List Call) :
    ∀ {cursor : Cursor}, cursor.Between text → cursor.Settled →
      (cursor.afterAll calls).Between text ∧ (cursor.afterAll calls).Settled := by
  induction calls with
  | nil => exact fun hb hs => ⟨hb, hs⟩
  | cons call calls ih =>
    intro cursor hb hs
    cases call with
    | advance =>
      have hm := cursor.moves_advance
      exact ih (hm.between hb) (hm.settled fun _ => hs)
    | current => exact ih hb hs
    | isBefore c => exact ih hb hs

theorem sound_of_between {text : String} {cursor : Cursor} (hb : cursor.Between text)
    (hs : cursor.Settled) : cursor.Sound text where
  boundaries place hplace := by
    have hbetween : place.Between text := by
      simp only [List.mem_cons, List.not_mem_nil, or_false] at hplace
      rcases hplace with rfl | rfl | rfl
      · exact hb
      · exact hb.passBlanks
      · exact cursor.moves_advance.between hb
    exact ⟨hbetween, hbetween.boundary⟩
  forward := ⟨offset_passBlanks_le cursor, cursor.moves_advance.offset_le⟩
  failing next failure h := by
    have hagain := advance_of_failed h
    have hstays calls : next.afterAll calls = next :=
      afterAll_eq_self (by rw [hagain]) calls
    cases moves_of_advance h with
    | @fails first rest ht hf =>
      refine ⟨rfl, ⟨_, (blanks_append_rest cursor).symm, fun c hc => ?_⟩, ⟨first, ?_, rfl⟩, ?_⟩
      · exact List.all_eq_true.mp List.all_takeWhile c hc
      · rw [ht]
        rfl
      · intro calls
        rw [hstays]
        exact hagain
  ended hn calls := by
    have h := advance_of_ended hs hn
    rw [afterAll_eq_self (by rw [h]) calls, h]
    exact ⟨hn, rfl⟩
  delivering next token h := (moves_of_advance h).delivering

theorem Moves.length_rest_le {cursor next : Cursor} {failure : Option Failure}
    (h : cursor.Moves next failure) : next.rest.length ≤ cursor.rest.length := by
  have hblanks := passBlanks_rest_length_le cursor
  cases h with
  | ends rest => exact hblanks
  | delivers ht hf =>
    refine Nat.le_trans ?_ hblanks
    rw [pass, List.length_drop]
    exact Nat.sub_le _ _
  | fails ht hf => exact hblanks

/-- Each token that is delivered leaves less text. -/
theorem length_delivered_le (calls : List Call) : ∀ cursor : Cursor,
    (cursor.delivered calls).length + (cursor.afterAll calls).rest.length ≤
      cursor.rest.length := by
  induction calls with
  | nil => exact fun cursor => Nat.le_of_eq (Nat.zero_add _)
  | cons call calls ih =>
    intro cursor
    cases call with
    | current => exact ih cursor
    | isBefore c => exact ih cursor
    | advance =>
      rcases h : cursor.advance with ⟨next, failure⟩
      have hnext := ih next
      have hle := (moves_of_advance h).length_rest_le
      rw [delivered, afterAll, List.foldl_cons, after, h]
      change _ + (next.afterAll calls).rest.length ≤ _
      cases failure with
      | some failure => exact Nat.le_trans hnext hle
      | none =>
        dsimp only
        cases hc : next.current with
        | none => exact Nat.le_trans hnext hle
        | some token =>
          have hlt := advance_rest_length_lt h rfl hc
          rw [Option.toList_some, List.length_append, List.length_singleton]
          omega

/-- Whatever is called on the cursor of a text, it stays sound, and there are never more tokens than
characters. -/
theorem sound_after_calls {text : String} {cursor : Cursor}
    (hnew : (start text).advance = (cursor, none)) (calls : List Call) :
    (cursor.afterAll calls).Sound text ∧
      ((start text).delivered (.advance :: calls)).length ≤ text.length := by
  constructor
  · have hm := moves_of_advance hnew
    obtain ⟨hb, hs⟩ := between_afterAll calls (hm.between (between_start text)) (hm.settled nofun)
    exact sound_of_between hb hs
  · exact Nat.le_trans (Nat.le_add_right _ _) (length_delivered_le (.advance :: calls) (start text))

/-- Calls after an advance that has failed, in a text with a character of two bytes. -/
theorem sound_after_failed_advance :
    let cursor := (start "é $ 2").advance.1
    (start "é $ 2").advance = (cursor, none) ∧
      (cursor.afterAll [.advance, .isBefore '$', .advance]).Sound "é $ 2" ∧
        ((start "é $ 2").delivered [.advance, .advance, .isBefore '$', .advance]).length ≤ 5 := by
  intro cursor
  have hnew : (start "é $ 2").advance = (cursor, none) := by decide +kernel
  exact ⟨hnew, sound_after_calls hnew [.advance, .isBefore '$', .advance]⟩

end Cursor

end Calculator
