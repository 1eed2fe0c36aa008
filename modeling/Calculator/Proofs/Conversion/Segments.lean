import Calculator.Proofs.Conversion.Steps
import Calculator.Proofs.Yard.Segments

/-!
# The stack during a conversion

Between any two tokens the segments of the stack have their shape, and where a minus is a
sign the innermost one is empty. As long as behind every name that is reported to open
there is a parenthesis, the parentheses on the stack are those that have been opened less
those that have been closed.
-/
namespace Calculator

variable {lexeme : Lexeme}

/-! ## The shape of the stack -/

theorem Lexeme.leading_of_symbol_eq_sign {leading : Bool}
    (h : lexeme.symbol leading = .ok .sign) : leading = true := by
  rw [Lexeme.symbol] at h
  split at h
  · split at h <;> cases h
  · rw [identifierSymbol] at h
    split at h
    · cases h
    · split at h <;> cases h
  · rw [Token.operatorSymbol] at h
    split at h
    · rename_i hsign
      exact (Bool.and_eq_true_iff.mp hsign).1
    · split at h <;> cases h
  · split at h <;> cases h

theorem Symbol.eq_sign_of_mark {symbol : Symbol} {answer : Float}
    (h : symbol.mark answer = .sign) : symbol = .sign := by
  cases symbol with
  | sign => rfl
  | _ => cases h

namespace Conversion

variable {conversion next last : Conversion} {lexemes : List Lexeme}

/-- The stack is as it should be at the place of the next token. -/
structure Shaped (conversion : Conversion) : Prop where
  segmented : Segmented conversion.yard.stack
  /-- At the beginning of a group nothing waits in it. -/
  empty : conversion.place ≠ .inner → (segments conversion.yard.stack).head? = some []

theorem shaped_start : Shaped start :=
  ⟨.nil, fun _ => rfl⟩

/-- A sign is read only where the innermost segment is empty, and the parenthesis behind which the
next one is read begins a segment. -/
theorem Shaped.step (h : Shaped conversion) (hs : Step lexeme conversion next) : Shaped next := by
  cases hs with
  | passed yard => exact ⟨h.segmented, fun _ => h.empty nofun⟩
  | @taken yard after place symbol answer elsewhere reads adds =>
    constructor
    · refine ShuntingYard.segmented_add h.segmented (fun hmark => h.empty ?_) adds
      obtain rfl := Symbol.eq_sign_of_mark hmark
      have hleading : place = .leading :=
        of_decide_eq_true (Lexeme.leading_of_symbol_eq_sign reads)
      rw [hleading]
      exact nofun
    · intro hplace
      cases symbol with
      | call function =>
        cases adds
        exact congrArg List.head? (segments_opened yard.stack)
      | opening =>
        cases adds
        exact congrArg List.head? (segments_opened yard.stack)
      | _ => exact absurd rfl hplace

theorem Steps.shaped (h : Steps conversion lexemes last) (hfirst : Shaped conversion) :
    Shaped last :=
  h.preserves (fun _ _ _ hshaped hstep => hshaped.step hstep) hfirst

end Conversion

/-! ## The parentheses on the stack -/

namespace Token

variable {token : Token}

theorem isClosing_of_isOpening (h : token.isOpening = true) : token.isClosing = false := by
  by_contra hc
  rw [isOpening_of_isClosing (by simpa using hc)] at h
  cases h

/-- A token counts as one opening parenthesis or as none. -/
def openings (token : Token) : Nat :=
  if token.isOpening then 1 else 0

/-- A token counts as one closing parenthesis or as none. -/
def closings (token : Token) : Nat :=
  if token.isClosing then 1 else 0

theorem counts_opening (h : token.isOpening = true) : token.openings = 1 ∧ token.closings = 0 := by
  rw [openings, closings, h, isClosing_of_isOpening h]
  exact ⟨rfl, rfl⟩

theorem counts_closing (h : token.isClosing = true) : token.openings = 0 ∧ token.closings = 1 := by
  rw [openings, closings, h, isOpening_of_isClosing h]
  exact ⟨rfl, rfl⟩

theorem counts_plain (h : token.kind ≠ .punctuation) :
    token.openings = 0 ∧ token.closings = 0 := by
  rw [openings, closings, isOpening_of_kind h, isClosing_of_kind h]
  exact ⟨rfl, rfl⟩

end Token

/-- A mark changes the depth by the parenthesis that its token is, or by the one that is ahead of
a name. -/
theorem Lexeme.Becomes.depth_add {symbol : Symbol} {mark : Mark Value}
    (h : lexeme.Becomes symbol mark) {yard after : ShuntingYard} (ha : yard.add mark = .ok after) :
    after.depth + lexeme.token.closings =
      yard.depth + lexeme.token.openings + symbol.place.ahead := by
  have plain (hk : lexeme.token.kind ≠ .punctuation) (ho : mark.opens = false)
      (hc : mark ≠ .closing) (hp : symbol.place = .inner) :
      after.depth + lexeme.token.closings =
        yard.depth + lexeme.token.openings + symbol.place.ahead := by
    obtain ⟨hopenings, hclosings⟩ := Token.counts_plain hk
    obtain ⟨other, hadd, hdepth⟩ := yard.exists_add_plain mark ho hc
    obtain rfl := Except.ok.inj (ha.symm.trans hadd)
    rw [hdepth, hopenings, hclosings, hp]
    rfl
  cases h with
  | number hk value => exact plain (by simp [hk]) rfl nofun rfl
  | letter hk name value => exact plain (by simp [hk]) rfl nofun rfl
  | sign hk => exact plain (by simp [hk]) rfl nofun rfl
  | operation hk operator => exact plain (by simp [hk]) rfl nofun rfl
  | @call hk function hname hopens =>
    have hkind : lexeme.token.kind ≠ .punctuation := by simp [hk]
    obtain ⟨hopenings, hclosings⟩ := Token.counts_plain hkind
    obtain ⟨other, hadd, hdepth⟩ := yard.exists_add_opens (.call function) rfl
    obtain rfl := Except.ok.inj (ha.symm.trans hadd)
    rw [hdepth, hopenings, hclosings]
    rfl
  | opening ho =>
    obtain ⟨hopenings, hclosings⟩ := Token.counts_opening ho
    obtain ⟨other, hadd, hdepth⟩ := yard.exists_add_opens .opening rfl
    obtain rfl := Except.ok.inj (ha.symm.trans hadd)
    rw [hdepth, hopenings, hclosings]
    rfl
  | closing hc =>
    obtain ⟨hopenings, hclosings⟩ := Token.counts_closing hc
    have hpos : 0 < yard.depth := by
      by_contra hzero
      rw [ShuntingYard.add_closing_of_depth_eq_zero (Nat.eq_zero_of_not_pos hzero)] at ha
      cases ha
    obtain ⟨other, hadd, hdepth⟩ := ShuntingYard.exists_add_closing hpos
    obtain rfl := Except.ok.inj (ha.symm.trans hadd)
    rw [hopenings, hclosings, hdepth]
    rfl

namespace Conversion

variable {conversion next last : Conversion} {lexemes : List Lexeme}

/-- Behind a name the parenthesis is on the stack before its token is passed over. -/
theorem Step.depth_eq (h : Step lexeme conversion next)
    (hname : conversion.place = .behindName → lexeme.token.isOpening = true) :
    next.yard.depth + lexeme.token.closings + conversion.place.ahead =
      conversion.yard.depth + lexeme.token.openings + next.place.ahead := by
  cases h with
  | passed yard =>
    obtain ⟨hopenings, hclosings⟩ := Token.counts_opening (hname rfl)
    rw [hopenings, hclosings]
    rfl
  | taken elsewhere reads adds =>
    rw [Place.ahead_of_ne elsewhere]
    exact (Lexeme.becomes_of_symbol reads _).depth_add adds

theorem Step.announces (h : Step lexeme conversion next) (hp : next.place = .behindName) :
    lexeme.opens = true ∧ lexeme.token.function?.isSome = true := by
  cases h with
  | passed yard => cases hp
  | @taken yard after place symbol answer elsewhere reads adds =>
    exact (Lexeme.becomes_of_symbol reads answer).announces hp

/-- The induction is on the steps; a name that opens passes on that a parenthesis follows it. -/
theorem Steps.depth_eq (h : Steps conversion lexemes last)
    (hname : conversion.place = .behindName →
      ∀ first ∈ lexemes.head?, first.token.isOpening = true)
    (hchain : lexemes.IsChain Lexeme.Announces) :
    last.yard.depth + (lexemes.map Lexeme.token).countP Token.isClosing + conversion.place.ahead =
      conversion.yard.depth + (lexemes.map Lexeme.token).countP Token.isOpening +
        last.place.ahead := by
  induction h with
  | nil => rfl
  | @cons conversion next last lexeme lexemes step steps ih =>
    have hstep := step.depth_eq fun hp => hname hp lexeme rfl
    have hrest := ih (fun hp first hf => ?_) hchain.tail
    · rw [List.map_cons, List.countP_cons, List.countP_cons]
      rw [Token.openings, Token.closings] at hstep
      omega
    · obtain ⟨hopens, hfunction⟩ := step.announces hp
      exact (List.isChain_cons.mp hchain).1 first hf hopens hfunction

end Conversion

/-- Whatever tokens have been handled, between two parentheses on the stack there is at most one
sign, with operators above it that bind ever more tightly, so at most four entries, and where the
next minus is a sign the innermost segment is empty. If no name is reported to open without a
parenthesis behind it, the parentheses on the stack are those opened less those closed. -/
theorem segments_of_handled {σ : Type} (source : Source σ) (state : σ) {handled : List Lexeme}
    {conversion : Conversion}
    (h : ((Conversion.start.addLexemes handled).run source state).outcome = .ok conversion) :
    let stack := conversion.yard.stack
    let tokens := handled.map Lexeme.token
    (∀ segment ∈ segments stack, Segment segment ∧ segment.length ≤ 4) ∧
    (conversion.place ≠ .inner → (segments stack).head? = some []) ∧
    (handled.IsChain Lexeme.Announces →
      stack.count .parenthesis + tokens.countP Token.isClosing =
        tokens.countP Token.isOpening + conversion.place.ahead) := by
  intro stack tokens
  have hsteps := Conversion.steps_of_addLexemes h
  obtain ⟨hsegmented, hempty⟩ := hsteps.shaped Conversion.shaped_start
  refine ⟨fun segment hm => ?_, hempty, fun hchain => ?_⟩
  · have hsegment := hsegmented segment hm
    exact ⟨hsegment, hsegment.length_le⟩
  · have hdepth := hsteps.depth_eq nofun hchain
    have hstart : Conversion.start.yard.depth = 0 := rfl
    have hahead : Conversion.start.place.ahead = 0 := rfl
    rw [hstart, hahead, Nat.zero_add, Nat.add_zero] at hdepth
    exact hdepth

/-- A call and a group, both open, with a sign before the group and operators on both sides. -/
theorem segments_of_open_sine :
    let handled := (TokenStream.ofString "1+2*sin(-(3*4^").lexemes
    let stack := [.operation .exponentiation, .operation .multiplication, .parenthesis, .negation,
      .parenthesis, .operation .multiplication, .operation .addition]
    ∃ conversion : Conversion,
      ((Conversion.start.addLexemes handled).run Bindings.empty.source ()).outcome =
        .ok conversion ∧
      conversion.yard.stack = stack ∧ conversion.place = .inner ∧
      (∀ segment ∈ segments stack, Segment segment ∧ segment.length ≤ 4) ∧
      stack.count .parenthesis + (handled.map Lexeme.token).countP Token.isClosing =
        (handled.map Lexeme.token).countP Token.isOpening := by
  intro handled stack
  let conversion : Conversion :=
    ⟨⟨[.number 4, .call .sine, .number 3, .number 2, .number 1], stack, []⟩, .inner⟩
  have hrun : ((Conversion.start.addLexemes handled).run Bindings.empty.source ()).outcome =
      .ok conversion := by decide +kernel
  obtain ⟨hshape, -, hcount⟩ := segments_of_handled Bindings.empty.source () hrun
  exact ⟨conversion, hrun, rfl, rfl, hshape, hcount (TokenStream.isChain_announces _)⟩

end Calculator
