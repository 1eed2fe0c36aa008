import Calculator.Proofs.Session.Interview
import Calculator.Proofs.Session.Texts
import Mathlib.Data.List.Basic

/-!
# The course of a session

A session is a row of rounds. Each of them reads an expression and the answers to its
questions, and what remains to be read is all that it leaves to the rounds behind it.
Every session has exactly one course, and the rest of a course is the course of a
session that begins with the lines not yet read.
-/
namespace Calculator

/-- The report of one expression of a session. -/
structure Round where
  expression : String
  questions : List Char
  answers : List InputLine
  outcome : Except Failure Float

namespace Round

/-- The lines that a round reads. -/
def lines (round : Round) : List InputLine :=
  .text round.expression :: round.answers

/-- What a round shows, from the invitation on. -/
def shown (precision : Option Nat) (round : Round) : List Output :=
  .ready :: round.questions.map .question ++ [.ofOutcome precision round.outcome]

/-- The characters of a round: the invitation, its prompts and its last line. -/
def Reads (precision : Option Nat) (round : Round) (text : String) : Prop :=
  ∃ last, LastLine precision round.outcome last ∧ text = "> " ++ prompts round.questions ++ last

end Round

/-- The line that would be the next expression ends a session with a status. -/
def EndsWith : List InputLine → Nat → Prop
  | [], status => status = 0
  | .text line :: _, status => (∀ c ∈ line.toList, Text.isBlank c) ∧ status = 0
  | .undecodable :: _, status => status = 1

/-- The rounds of a session on an input, the lines behind the last round, and the status. -/
structure Course (presets : Bindings) (precision : Option Nat) (input : List InputLine)
    (rounds : List Round) (left : List InputLine) (status : Nat) : Prop where
  /-- Every line is read once, in order, as an expression or as an answer. -/
  inOrder : input = rounds.flatMap Round.lines ++ left
  exchange : session presets precision input =
    ⟨rounds.flatMap (Round.shown precision) ++ [.ready], status⟩
  /-- Only lines that are not blank are expressions. -/
  expressions : ∀ round ∈ rounds, ¬ ∀ c ∈ round.expression.toList, Text.isBlank c
  /-- The lines behind an expression answer its questions. -/
  interviews : ∀ before round behind, rounds = before ++ round :: behind →
    let unread := behind.flatMap Round.lines ++ left
    Interview presets (calculate round.expression) (round.answers ++ unread) round.questions
      round.answers unread round.outcome
  ending : EndsWith left status

variable {presets : Bindings} {precision : Option Nat} {input left : List InputLine}
  {rounds behind : List Round} {round : Round} {status : Nat}

theorem Turn.ofLine_eq_evaluate {line : InputLine} {expression : String}
    (h : Turn.ofLine line = .evaluate expression) :
    line = .text expression ∧ ¬ ∀ c ∈ expression.toList, Text.isBlank c := by
  cases line with
  | undecodable => cases h
  | text written =>
    rw [ofLine] at h
    split at h
    · cases h
    · rename_i hb
      cases h
      exact ⟨rfl, fun hall => hb (List.all_eq_true.mpr hall)⟩

theorem endsWith_of_finish {line : InputLine} (h : Turn.ofLine line = .finish status)
    (unread : List InputLine) : EndsWith (line :: unread) status := by
  cases line with
  | undecodable =>
    cases h
    rfl
  | text written =>
    rw [Turn.ofLine] at h
    split at h
    · rename_i hb
      cases h
      exact ⟨List.all_eq_true.mp hb, rfl⟩
    · cases h

/-- A report goes on with the lines behind its answers, and the session with what the report has
left. -/
theorem session_of_interview (hb : ¬ ∀ c ∈ round.expression.toList, Text.isBlank c)
    {unread : List InputLine}
    (h : Interview presets (calculate round.expression) (round.answers ++ unread) round.questions
      round.answers unread round.outcome) :
    session presets precision (round.lines ++ unread) =
      (session presets precision unread).after (round.shown precision) := by
  have hturn : Turn.ofLine (.text round.expression) = .evaluate round.expression := by
    rw [Turn.ofLine, if_neg]
    rwa [List.all_eq_true]
  have hstate := h.state_run []
  have houtcome := h.outcome_run []
  rw [Round.lines, List.cons_append, session, hturn]
  simp only [report, consoleRun, hstate, houtcome]
  rfl

theorem session_of_endsWith (h : EndsWith left status) :
    session presets precision left = ⟨[.ready], status⟩ := by
  rcases left with _ | ⟨line | _, rest⟩
  · cases h
    rw [session]
  · obtain ⟨hb, rfl⟩ := h
    have hturn : Turn.ofLine (.text line) = .finish 0 := by
      rw [Turn.ofLine, if_pos]
      exact List.all_eq_true.mpr hb
    rw [session, hturn]
  · cases h
    rw [session]
    rfl

namespace Course

theorem finish (h : EndsWith left status) : Course presets precision left [] left status where
  inOrder := rfl
  exchange := session_of_endsWith h
  expressions := nofun
  interviews before round behind he := by simp at he
  ending := h

theorem cons (h : Course presets precision input rounds left status)
    (hb : ¬ ∀ c ∈ round.expression.toList, Text.isBlank c)
    (hi : Interview presets (calculate round.expression) (round.answers ++ input) round.questions
      round.answers input round.outcome) :
    Course presets precision (round.lines ++ input) (round :: rounds) left status where
  inOrder := by rw [List.flatMap_cons, List.append_assoc, ← h.inOrder]
  exchange := by
    rw [session_of_interview hb hi, h.exchange, List.flatMap_cons, List.append_assoc]
    rfl
  expressions other ho := by
    rcases List.mem_cons.mp ho with rfl | ho
    · exact hb
    · exact h.expressions other ho
  interviews before other behind he := by
    rcases before with _ | ⟨first, before⟩
    · cases he
      rw [h.inOrder] at hi
      exact hi
    · cases he
      exact h.interviews before other behind rfl
  ending := h.ending

/-- The rounds behind the first are the course of a session on the lines that it has left. -/
theorem tail (h : Course presets precision input (round :: rounds) left status) :
    Course presets precision (rounds.flatMap Round.lines ++ left) rounds left status where
  inOrder := rfl
  exchange := by
    have hb := h.expressions round List.mem_cons_self
    have hi := h.interviews [] round rounds rfl
    have he := h.exchange
    rw [h.inOrder, List.flatMap_cons, List.append_assoc, session_of_interview hb hi,
      List.flatMap_cons, List.append_assoc] at he
    obtain ⟨hshown, hstatus⟩ := Exchange.mk.inj he
    exact congrArg₂ Exchange.mk (List.append_cancel_left hshown) hstatus
  expressions other ho := h.expressions other (List.mem_cons_of_mem round ho)
  interviews before other behind he := h.interviews (round :: before) other behind (by rw [he]; rfl)
  ending := h.ending

theorem drop {before : List Round} (h : Course presets precision input (before ++ behind) left status) :
    Course presets precision (behind.flatMap Round.lines ++ left) behind left status := by
  induction before generalizing input with
  | nil => exact h.inOrder ▸ h
  | cons round before ih => exact ih h.tail

theorem not_endsWith (h : Course presets precision input (round :: rounds) left status)
    (other : Nat) : ¬ EndsWith input other := by
  rw [h.inOrder]
  exact fun he => h.expressions round List.mem_cons_self he.1

/-- The first round of a course is determined by its input. -/
theorem round_unique {more : List Round} {other : Round} {rest : List InputLine} {last : Nat}
    (h : Course presets precision input (round :: rounds) left status)
    (ho : Course presets precision input (other :: more) rest last) :
    round = other ∧ rounds.flatMap Round.lines ++ left = more.flatMap Round.lines ++ rest := by
  have hlines := h.inOrder.symm.trans ho.inOrder
  simp only [List.flatMap_cons, Round.lines, List.cons_append, List.append_assoc] at hlines
  obtain ⟨hexpression, htail⟩ := List.cons.inj hlines
  have hi := h.interviews [] round rounds rfl
  have hio := ho.interviews [] other more rfl
  dsimp only at hi hio
  rw [← htail, ← InputLine.text.inj hexpression] at hio
  obtain ⟨hleft, hshown⟩ := Console.mk.inj ((hi.state_run []).symm.trans (hio.state_run []))
  have hquestions : round.questions = other.questions :=
    List.map_injective_iff.mpr (fun _ _ => Output.question.inj) hshown
  rw [hleft] at htail
  obtain ⟨expression, questions, answers, outcome⟩ := round
  obtain ⟨expression', questions', answers', outcome'⟩ := other
  have hanswers : answers = answers' := List.append_cancel_right htail
  have houtcome : outcome = outcome' := (hi.outcome_run []).symm.trans (hio.outcome_run [])
  cases hexpression
  cases hquestions
  cases hanswers
  cases houtcome
  exact ⟨rfl, hleft⟩

theorem unique {more : List Round} {rest : List InputLine} {last : Nat}
    (h : Course presets precision input rounds left status)
    (ho : Course presets precision input more rest last) :
    more = rounds ∧ rest = left ∧ last = status := by
  induction rounds generalizing input more with
  | nil =>
    rcases more with _ | ⟨other, more⟩
    · have hlines : left = rest := h.inOrder.symm.trans ho.inOrder
      exact ⟨rfl, hlines.symm, (Exchange.mk.inj (ho.exchange.symm.trans h.exchange)).2⟩
    · refine absurd ?_ (ho.not_endsWith status)
      rw [h.inOrder]
      exact h.ending
  | cons round rounds ih =>
    rcases more with _ | ⟨other, more⟩
    · refine absurd ?_ (h.not_endsWith last)
      rw [ho.inOrder]
      exact ho.ending
    · obtain ⟨rfl, hrest⟩ := h.round_unique ho
      have htail := ho.tail
      rw [← hrest] at htail
      obtain ⟨rfl, rfl, rfl⟩ := ih h.tail htail
      exact ⟨rfl, rfl, rfl⟩

end Course

/-- The induction is the recursion of the session: on the lines that a report leaves. -/
theorem exists_course (presets : Bindings) (precision : Option Nat) (input : List InputLine) :
    ∃ rounds left status, Course presets precision input rounds left status := by
  induction input using session.induct presets precision with
  | case1 => exact ⟨[], [], 0, .finish rfl⟩
  | case2 line unread status hturn =>
    exact ⟨[], line :: unread, status, .finish (endsWith_of_finish hturn unread)⟩
  | case3 line unread expression hturn _ ih =>
    obtain ⟨rfl, hb⟩ := Turn.ofLine_eq_evaluate hturn
    obtain ⟨questions, answers, rest, outcome, hi⟩ :=
      exists_interview presets (calculate expression) unread
    obtain rfl := hi.inOrder
    have hrest : (report presets precision expression (answers ++ rest)).unread = rest := by
      rw [report, consoleRun, hi.state_run []]
    obtain ⟨rounds, left, status, h⟩ := ih
    rw [hrest] at h
    let round : Round := ⟨expression, questions, answers, outcome⟩
    have hround : Course presets precision (round.lines ++ rest) (round :: rounds) left status :=
      h.cons hb hi
    exact ⟨round :: rounds, left, status, hround⟩

theorem count_ready_shown (precision : Option Nat) (round : Round) :
    (round.shown precision).count Output.ready = 1 := by
  have hquestions : (round.questions.map Output.question).count Output.ready = 0 := by
    rw [List.count_eq_zero]
    simp
  have hlast : [Output.ofOutcome precision round.outcome].count Output.ready = 0 := by
    rw [List.count_eq_zero]
    cases round.outcome <;> simp [Output.ofOutcome]
  rw [Round.shown, List.cons_append, List.count_cons_self, List.count_append, hquestions, hlast]

theorem count_ready_rounds (precision : Option Nat) (rounds : List Round) :
    (rounds.flatMap (Round.shown precision) ++ [Output.ready]).count Output.ready =
      rounds.length + 1 := by
  induction rounds with
  | nil => rfl
  | cons round rounds ih =>
    rw [List.flatMap_cons, List.append_assoc, List.count_append, count_ready_shown, ih,
      List.length_cons]
    omega

theorem Round.exists_reads (precision : Option Nat) (round : Round) :
    ∃ text, round.Reads precision text ∧
      String.join ((round.shown precision).map Output.text) = text := by
  obtain ⟨last, hlast, htext⟩ := exists_lastLine precision round.questions round.outcome
  refine ⟨_, ⟨last, hlast, rfl⟩, ?_⟩
  rw [Round.shown, List.cons_append, List.map_cons, String.join_cons, htext, String.append_assoc]
  rfl

theorem exists_texts (precision : Option Nat) (rounds : List Round) :
    ∃ texts, List.Forall₂ (Round.Reads precision) rounds texts ∧
      String.join ((rounds.flatMap (Round.shown precision) ++ [Output.ready]).map Output.text) =
        String.join texts ++ "> " := by
  induction rounds with
  | nil => exact ⟨[], .nil, rfl⟩
  | cons round rounds ih =>
    obtain ⟨text, hround, htext⟩ := round.exists_reads precision
    obtain ⟨texts, hrounds, htexts⟩ := ih
    refine ⟨text :: texts, .cons hround hrounds, ?_⟩
    rw [List.flatMap_cons, List.append_assoc, List.map_append, String.join_append, htext, htexts,
      String.join_cons, String.append_assoc]

/-- Every session has exactly one course. After any of its rounds the rest is the whole course of a
session that begins with the lines not yet read: nothing else is kept from one report to the
next. The invitation is shown once more than there are rounds, before each of them and at the
end. -/
theorem session_takes_its_course (presets : Bindings) (precision : Option Nat)
    (input : List InputLine) :
    ∃ rounds left status, Course presets precision input rounds left status ∧
      (∀ other rest last, Course presets precision input other rest last →
        other = rounds ∧ rest = left ∧ last = status) ∧
      (∀ before behind, rounds = before ++ behind →
        Course presets precision (behind.flatMap Round.lines ++ left) behind left status) ∧
      (session presets precision input).shown.count Output.ready = rounds.length + 1 ∧
      ∃ texts, List.Forall₂ (Round.Reads precision) rounds texts ∧
        (session presets precision input).text = String.join texts ++ "> " := by
  obtain ⟨rounds, left, status, h⟩ := exists_course presets precision input
  refine ⟨rounds, left, status, h, fun _ _ _ ho => h.unique ho, ?_, ?_, ?_⟩
  · rintro before behind rfl
    exact h.drop
  · rw [h.exchange]
    exact count_ready_rounds precision rounds
  · rw [h.exchange]
    exact exists_texts precision rounds

end Calculator
