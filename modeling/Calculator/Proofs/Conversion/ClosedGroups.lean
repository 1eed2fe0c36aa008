import Calculator.Proofs.Conversion.Frames
import Calculator.Proofs.Yard.Nests

/-!
# Closed groups

From an opening parenthesis to the closing one that matches it, the parentheses of a call
included, a conversion works on top of the stack that it found and looks at nothing of it.
Behind the group the stack is the one before it, as long as every name between that is
reported to open has its parenthesis as the next token. The nodes that have left are only
ever added to.
-/
namespace Calculator

/-- A pair of parentheses with balanced tokens between them, and the function's name if they are
those of a call. -/
structure ClosedGroup where
  name : Option Lexeme
  opening : Lexeme
  inside : List Lexeme
  closing : Lexeme
  isName : ∀ lexeme ∈ name, lexeme.token.function?.isSome = true
  isOpening : opening.token.isOpening = true
  isClosing : closing.token.isClosing = true
  balanced : closes 0 (inside.map Lexeme.token) = true

namespace ClosedGroup

/-- The tokens up to the opening parenthesis. -/
def entry (group : ClosedGroup) : List Lexeme :=
  group.name.toList ++ [group.opening]

def lexemes (group : ClosedGroup) : List Lexeme :=
  group.entry ++ (group.inside ++ [group.closing])

/-- Between the parentheses no name is reported to open that has no parenthesis behind it. -/
def Truthful (group : ClosedGroup) : Prop :=
  (group.inside ++ [group.closing]).IsChain Lexeme.Announces

end ClosedGroup

/-- The name of a function has no other symbol than its call. -/
theorem Lexeme.exists_call_of_symbol {lexeme : Lexeme} {leading : Bool} {symbol : Symbol}
    (hname : lexeme.token.function?.isSome = true) (h : lexeme.symbol leading = .ok symbol) :
    ∃ function, symbol = .call function := by
  rw [Token.function?] at hname
  split at hname
  · rename_i hk
    obtain ⟨function, hf⟩ := Option.isSome_iff_exists.mp hname
    rw [NamedFunction.ofText?_eq_some_iff] at hf
    rw [Lexeme.symbol, hk] at h
    dsimp only at h
    rw [identifierSymbol] at h
    split at h
    · rename_i name hc
      exact absurd (hf.symm.trans hc) (name_ne_singleton function name)
    · split at h
      · cases h
        exact ⟨_, rfl⟩
      · cases h
  · cases hname

namespace Conversion

variable {conversion next last : Conversion} {lexeme closing : Lexeme}

/-! ## The edges of a group -/

theorem Step.eq_of_isOpening (h : Step lexeme conversion next)
    (hopening : lexeme.token.isOpening = true) (hp : conversion.place ≠ .behindName) :
    next = ⟨conversion.yard.openGroup, .leading⟩ := by
  cases h with
  | passed yard => exact absurd rfl hp
  | taken elsewhere reads adds =>
    rw [Lexeme.symbol_of_isOpening hopening] at reads
    cases reads
    cases adds
    rfl

theorem Step.eq_of_isName (h : Step lexeme conversion next)
    (hname : lexeme.token.function?.isSome = true) (hp : conversion.place ≠ .behindName) :
    ∃ function, next = ⟨conversion.yard.openCall function, .behindName⟩ := by
  cases h with
  | passed yard => exact absurd rfl hp
  | taken elsewhere reads adds =>
    obtain ⟨function, rfl⟩ := Lexeme.exists_call_of_symbol hname reads
    cases adds
    exact ⟨function, rfl⟩

theorem Step.eq_of_behindName (h : Step lexeme conversion next)
    (hp : conversion.place = .behindName) : next = ⟨conversion.yard, .leading⟩ := by
  cases h with
  | passed yard => rfl
  | taken elsewhere reads adds => exact absurd hp elsewhere

/-- Behind the tokens of a truthful row a name has its parenthesis next. The induction is on the
steps. -/
theorem Steps.isOpening_of_behindName {lexemes : List Lexeme} (h : Steps conversion lexemes last)
    (hname : conversion.place = .behindName →
      ∀ first ∈ (lexemes ++ [closing]).head?, first.token.isOpening = true)
    (hchain : (lexemes ++ [closing]).IsChain Lexeme.Announces)
    (hp : last.place = .behindName) : closing.token.isOpening = true := by
  induction h with
  | nil => exact hname hp closing rfl
  | @cons conversion next last lexeme lexemes step steps ih =>
    refine ih (fun hnext first hf => ?_) hchain.tail hp
    obtain ⟨hopens, hfunction⟩ := step.announces hnext
    exact (List.isChain_cons.mp hchain).1 first hf hopens hfunction

/-! ## The output -/

theorem Step.nodes_isPrefix (h : Step lexeme conversion next) :
    conversion.yard.nodes <+: next.yard.nodes := by
  cases h with
  | passed yard => exact List.prefix_rfl
  | taken elsewhere reads adds =>
    obtain ⟨emitted, hnodes, -⟩ := ShuntingYard.exists_emitted adds
    exact ⟨emitted, hnodes.symm⟩

theorem Steps.nodes_isPrefix {lexemes : List Lexeme} (h : Steps conversion lexemes last) :
    conversion.yard.nodes <+: last.yard.nodes := by
  induction h with
  | nil => exact List.prefix_rfl
  | cons step _ ih => exact step.nodes_isPrefix.trans ih

theorem nodes_isPrefix_of_finish {σ : Type} {source : Source σ} {state : σ}
    {ending : Option Failure} {nodes : List Node}
    (h : ((conversion.finish ending).run source state).outcome = .ok nodes) :
    conversion.yard.nodes <+: nodes := by
  cases ending with
  | some failure => cases h
  | none =>
    rw [finish, ShuntingYard.finish] at h
    cases hw : conversion.yard.stack.mapM Waiting.node? with
    | none =>
      rw [hw] at h
      cases h
    | some waiting =>
      rw [hw] at h
      cases h
      rw [List.append_assoc]
      exact List.prefix_append _ _

end Conversion

namespace ClosedGroup

open Conversion

variable {conversion last : Conversion} (group : ClosedGroup)

/-- Behind the opening parenthesis there is one entry more on the stack. -/
theorem place_and_stack_of_entry (hp : conversion.place ≠ .behindName)
    (h : Steps conversion group.entry last) :
    last.place = .leading ∧ last.yard.stack = .parenthesis :: conversion.yard.stack := by
  rw [entry] at h
  cases hn : group.name with
  | none =>
    rw [hn] at h
    rw [h.of_singleton.eq_of_isOpening group.isOpening hp]
    exact ⟨rfl, rfl⟩
  | some name =>
    rw [hn] at h
    obtain ⟨named, hname, hopening⟩ := h.split
    obtain ⟨function, rfl⟩ := hname.of_singleton.eq_of_isName (group.isName name hn) hp
    rw [hopening.of_singleton.eq_of_behindName rfl]
    exact ⟨rfl, rfl⟩

theorem inside_of_entry (hp : conversion.place ≠ .behindName)
    (h : Steps conversion group.entry last) :
    Inside conversion.yard.stack (group.inside.map Lexeme.token) last := by
  obtain ⟨hplace, hstack⟩ := group.place_and_stack_of_entry hp h
  refine @Inside.of _ _ _ [] 0 hstack group.balanced ?_
  rw [hplace]
  rfl

/-- Up to the opening parenthesis nothing is looked at, since no more than an entry is added. -/
theorem selfContained_entry (hp : conversion.place ≠ .behindName) :
    conversion.SelfContained group.entry := by
  rw [entry]
  cases hn : group.name with
  | none =>
    refine .singleton fun symbol answer outside base _ hs => ?_
    rw [Lexeme.symbol_of_isOpening group.isOpening] at hs
    cases hs
    rfl
  | some name =>
    have hcall : conversion.SelfContained [name] := by
      refine .singleton fun symbol answer outside base _ hs => ?_
      obtain ⟨function, rfl⟩ := Lexeme.exists_call_of_symbol (group.isName name hn) hs
      rfl
    refine hcall.append fun named hname => .singleton fun symbol answer outside base hne _ => ?_
    obtain ⟨function, rfl⟩ := hname.of_singleton.eq_of_isName (group.isName name hn) hp
    exact absurd rfl hne

theorem selfContained (hp : conversion.place ≠ .behindName) {part : List Lexeme}
    (hpart : part <+: group.inside ++ [group.closing]) :
    conversion.SelfContained (group.entry ++ part) :=
  (group.selfContained_entry hp).append fun _ hs =>
    (group.inside_of_entry hp hs).selfContained hpart

/-- Up to the closing parenthesis the opening one stays where it is. -/
theorem exists_above_of_part (hp : conversion.place ≠ .behindName) {part : List Lexeme}
    (hpart : part <+: group.inside) (h : Steps conversion (group.entry ++ part) last) :
    ∃ above, last.yard.stack = above ++ .parenthesis :: conversion.yard.stack := by
  obtain ⟨more, hmore⟩ := hpart
  obtain ⟨entered, hentry, hrest⟩ := h.split
  have hinside := group.inside_of_entry hp hentry
  rw [← hmore, List.map_append] at hinside
  exact (hinside.steps hrest).exists_above

/-- Behind the balanced tokens only the parenthesis of the group is open above the stack that the
group found, so the closing one lets everything above that stack leave. -/
theorem place_and_stack_of_lexemes (hp : conversion.place ≠ .behindName)
    (htruthful : group.Truthful) (h : Steps conversion group.lexemes last) :
    last.place = .inner ∧ last.yard.stack = conversion.yard.stack := by
  rw [lexemes, ← List.append_assoc] at h
  obtain ⟨between, hbefore, hclosing⟩ := h.split
  obtain ⟨above, hstack⟩ := group.exists_above_of_part hp List.prefix_rfl hbefore
  obtain ⟨entered, hentry, hinside⟩ := hbefore.split
  obtain ⟨hleading, hentered⟩ := group.place_and_stack_of_entry hp hentry
  have hne : entered.place ≠ .behindName := by
    rw [hleading]
    decide
  have hplace : between.place ≠ .behindName := by
    intro hb
    have hopening := hinside.isOpening_of_behindName (fun he => absurd he hne) htruthful hb
    rw [Token.isOpening_of_isClosing group.isClosing] at hopening
    cases hopening
  have habove : .parenthesis ∉ above := by
    have hdepth := hinside.depth_eq (fun he => absurd he hne) htruthful.left_of_append
    rw [countP_of_closes group.balanced, Place.ahead_of_ne hne, Place.ahead_of_ne hplace,
      ShuntingYard.depth, ShuntingYard.depth, hstack, hentered, List.count_append] at hdepth
    rw [← List.count_eq_zero]
    omega
  cases hclosing.of_singleton with
  | passed yard => exact absurd rfl hplace
  | taken elsewhere reads adds =>
    rw [Lexeme.symbol_of_isClosing group.isClosing] at reads
    cases reads
    exact ⟨rfl, ShuntingYard.stack_of_add_closing hstack habove adds⟩

/-- What scans a text is truthful in every group. -/
theorem truthful_of_text {text : String} {before behind : List Lexeme}
    (h : (TokenStream.ofString text).lexemes = before ++ (group.lexemes ++ behind)) :
    group.Truthful := by
  have hchain := TokenStream.isChain_announces text
  rw [h, lexemes] at hchain
  exact hchain.right_of_append.left_of_append.right_of_append

end ClosedGroup

open Conversion

/-- From any yard and with any answers a truthful group leaves the stack as it found it, and a minus
right behind it is no sign. Whatever the scanner reports, the opening parenthesis stays on that
stack up to the closing one, the group does what it does on an empty stack and behind no nodes, and
at every step and at the end the nodes that have left are only added to. Right behind a name no
group begins, since the parenthesis there is the one of the call. -/
theorem closedGroup_leaves_stack {σ : Type} (source : Source σ) (state : σ)
    (conversion : Conversion) :
    (∀ group : ClosedGroup, conversion.place ≠ .behindName →
      (∀ last, group.Truthful →
        ((conversion.addLexemes group.lexemes).run source state).outcome = .ok last →
        last.yard.stack = conversion.yard.stack ∧ last.place = .inner ∧
          ∃ added, last.yard.nodes = conversion.yard.nodes ++ added) ∧
      (∀ part between, part <+: group.inside →
        ((conversion.addLexemes (group.entry ++ part)).run source state).outcome = .ok between →
        ∃ above, between.yard.stack = above ++ .parenthesis :: conversion.yard.stack) ∧
      ∀ part, part <+: group.inside ++ [group.closing] →
        (conversion.addLexemes (group.entry ++ part)).run source state =
          ((conversion.bare.addLexemes (group.entry ++ part)).run source state).map
            (atop conversion.yard.nodes conversion.yard.stack)) ∧
    (∀ lexemes next, ((conversion.addLexemes lexemes).run source state).outcome = .ok next →
      conversion.yard.nodes <+: next.yard.nodes) ∧
    ∀ ending nodes, ((conversion.finish ending).run source state).outcome = .ok nodes →
      conversion.yard.nodes <+: nodes := by
  refine ⟨fun group hp => ⟨fun last htruthful h => ?_, fun part between hpart h => ?_,
    fun part hpart => ?_⟩, fun lexemes next h => ?_, fun ending nodes h => ?_⟩
  · have hsteps := steps_of_addLexemes h
    obtain ⟨hplace, hstack⟩ := group.place_and_stack_of_lexemes hp htruthful hsteps
    obtain ⟨added, hadded⟩ := hsteps.nodes_isPrefix
    exact ⟨hstack, hplace, added, hadded.symm⟩
  · exact group.exists_above_of_part hp hpart (steps_of_addLexemes h)
  · have hbare : conversion.bare.place ≠ .behindName := hp
    rw [← group.selfContained hbare hpart, atop_bare]
  · exact (steps_of_addLexemes h).nodes_isPrefix
  · exact nodes_isPrefix_of_finish h

/-- The parentheses of a call behind two waiting operators, with a sign, a group and operators
between them. -/
theorem closedGroup_leaves_minus_and_times :
    ∃ (group : ClosedGroup) (conversion between last : Conversion),
      (TokenStream.ofString "1-2*cos(-(3)*4^2)").lexemes =
        (TokenStream.ofString "1-2*").lexemes ++ group.lexemes ∧
      ((Conversion.start.addLexemes (TokenStream.ofString "1-2*").lexemes).run
        Bindings.empty.source ()).outcome = .ok conversion ∧
      conversion.place ≠ .behindName ∧ group.Truthful ∧
      ((conversion.addLexemes group.lexemes).run Bindings.empty.source ()).outcome = .ok last ∧
      (last.yard.stack = conversion.yard.stack ∧ last.place = .inner ∧
        ∃ added, last.yard.nodes = conversion.yard.nodes ++ added) ∧
      ((conversion.addLexemes (group.entry ++ group.inside.take 5)).run Bindings.empty.source
        ()).outcome = .ok between ∧
      (∃ above, between.yard.stack = above ++ .parenthesis :: conversion.yard.stack) ∧
      (conversion.addLexemes group.lexemes).run Bindings.empty.source () =
        ((conversion.bare.addLexemes group.lexemes).run Bindings.empty.source ()).map
          (atop conversion.yard.nodes conversion.yard.stack) ∧
      conversion.yard.nodes <+: between.yard.nodes ∧
      conversion.yard.nodes <+:
        [.number 1, .number 2, .operation .multiplication, .operation .subtraction] := by
  let group : ClosedGroup :=
    { name := some ⟨⟨.identifier, ['c', 'o', 's'], 4⟩, true⟩
      opening := ⟨⟨.punctuation, ['('], 7⟩, false⟩
      inside := [⟨⟨.operator, ['-'], 8⟩, true⟩, ⟨⟨.punctuation, ['('], 9⟩, false⟩,
        ⟨⟨.number, ['3'], 10⟩, false⟩, ⟨⟨.punctuation, [')'], 11⟩, false⟩,
        ⟨⟨.operator, ['*'], 12⟩, false⟩, ⟨⟨.number, ['4'], 13⟩, false⟩,
        ⟨⟨.operator, ['^'], 14⟩, false⟩, ⟨⟨.number, ['2'], 15⟩, false⟩]
      closing := ⟨⟨.punctuation, [')'], 16⟩, false⟩
      isName := by decide
      isOpening := by decide
      isClosing := by decide
      balanced := by decide }
  let stack : List Waiting := [.operation .multiplication, .operation .subtraction]
  let conversion : Conversion := ⟨⟨[.number 2, .number 1], stack, []⟩, .inner⟩
  let between : Conversion :=
    ⟨⟨[.call .cosine, .number 3, .number 2, .number 1],
      .operation .multiplication :: .negation :: .parenthesis :: stack, []⟩, .inner⟩
  let last : Conversion :=
    ⟨⟨[.negation, .operation .multiplication, .operation .exponentiation, .number 2, .number 4,
      .call .cosine, .number 3, .number 2, .number 1], stack, []⟩, .inner⟩
  have htext : (TokenStream.ofString "1-2*cos(-(3)*4^2)").lexemes =
      (TokenStream.ofString "1-2*").lexemes ++ group.lexemes := by decide +kernel
  have hconversion : ((Conversion.start.addLexemes (TokenStream.ofString "1-2*").lexemes).run
      Bindings.empty.source ()).outcome = .ok conversion := by decide +kernel
  have hlast : ((conversion.addLexemes group.lexemes).run Bindings.empty.source ()).outcome =
      .ok last := by decide +kernel
  have hbetween : ((conversion.addLexemes (group.entry ++ group.inside.take 5)).run
      Bindings.empty.source ()).outcome = .ok between := by decide +kernel
  have hfinish : ((conversion.finish none).run Bindings.empty.source ()).outcome =
      .ok [.number 1, .number 2, .operation .multiplication, .operation .subtraction] := by
    decide +kernel
  have hplace : conversion.place ≠ .behindName := by decide
  have htruthful : group.Truthful :=
    group.truthful_of_text (htext.trans (congrArg _ (List.append_nil group.lexemes).symm))
  obtain ⟨hgroup, hnodes, hend⟩ := closedGroup_leaves_stack Bindings.empty.source () conversion
  obtain ⟨hleaves, habove, hcontained⟩ := hgroup group hplace
  exact ⟨group, conversion, between, last, htext, hconversion, hplace, htruthful, hlast,
    hleaves last htruthful hlast, hbetween, habove _ between (List.take_prefix 5 _) hbetween,
    hcontained _ List.prefix_rfl, hnodes _ between hbetween, hend none _ hfinish⟩

/-- A scanner that passes over comments between `(*` and `*)` reports in `(sin(**)5))` that an
opening parenthesis comes right behind `sin`, but delivers none. The number is passed over in its
place, and the parenthesis that matches the first closes the call instead. -/
theorem closedGroup_around_commented_sine :
    ∃ (group : ClosedGroup) (last : Conversion),
      group.lexemes = [⟨⟨.punctuation, ['('], 0⟩, false⟩, ⟨⟨.identifier, ['s', 'i', 'n'], 1⟩, true⟩,
        ⟨⟨.number, ['5'], 8⟩, false⟩, ⟨⟨.punctuation, [')'], 9⟩, false⟩] ∧
      ((Conversion.start.addLexemes group.lexemes).run Bindings.empty.source ()).outcome =
        .ok last ∧
      last.yard.stack ≠ Conversion.start.yard.stack ∧
      ((TokenStream.convert ⟨group.lexemes ++ [⟨⟨.punctuation, [')'], 10⟩, false⟩], none⟩).run
        Bindings.empty.source ()).outcome = .ok [.call .sine] := by
  let group : ClosedGroup :=
    { name := none
      opening := ⟨⟨.punctuation, ['('], 0⟩, false⟩
      inside := [⟨⟨.identifier, ['s', 'i', 'n'], 1⟩, true⟩, ⟨⟨.number, ['5'], 8⟩, false⟩]
      closing := ⟨⟨.punctuation, [')'], 9⟩, false⟩
      isName := nofun
      isOpening := by decide
      isClosing := by decide
      balanced := by decide }
  let last : Conversion := ⟨⟨[], [.parenthesis], [.sine]⟩, .inner⟩
  have hlast : ((Conversion.start.addLexemes group.lexemes).run Bindings.empty.source
      ()).outcome = .ok last := by decide +kernel
  exact ⟨group, last, rfl, hlast, by decide, by decide +kernel⟩

end Calculator
