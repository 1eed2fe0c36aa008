import Calculator.Proofs.Number.ReadBack

/-!
# Shown numbers

What can be read off the text of a double. In full it is the double itself. To a count of
places it is a decimal with so many places that no other comes nearer to the double. A
double that is not finite is written in full in any case.
-/
namespace Calculator.Number

/-- The text of a double from which the double is read back. -/
structure InFull (line : String) (x : Float) : Prop where
  eq_text : line = text x
  reads : read? line.toList = some x

theorem inFull_text (x : Float) : InFull (text x) x :=
  ⟨rfl, read?_text x⟩

/-- The text of a double to a count of places. -/
structure ToPlaces (places : Nat) (line : String) (x : Float) : Prop where
  eq_fixed : line = fixed places x
  /-- Behind the sign stands the nearest multiple of the last place. -/
  finite : unsignedBits x < infinityBits → ∃ unsigned whole,
    line.toList = (if isNegative x then '-' :: unsigned else unsigned) ∧
      readDecimal? unsigned = some ⟨whole, -places⟩ ∧
        RoundsTo (steps (unsignedBits x) * tenTo places) stepsInOne whole
  other : infinityBits ≤ unsignedBits x → InFull line x

theorem written_of_le {x : Float} (h : infinityBits ≤ unsignedBits x)
    (finite other : Nat → List Char) : written finite x = written other x := by
  rw [written, written]
  dsimp only
  split
  · rfl
  · rename_i hnan
    have hinfinite : unsignedBits x = infinityBits := Nat.le_antisymm (Nat.not_lt.mp hnan) h
    rw [if_pos hinfinite, if_pos hinfinite]

theorem fixed_of_le {x : Float} (h : infinityBits ≤ unsignedBits x) (places : Nat) :
    fixed places x = text x :=
  congrArg String.ofList (written_of_le h (roundedWritten places) shortestWritten)

theorem toPlaces_fixed (places : Nat) (x : Float) : ToPlaces places (fixed places x) x where
  eq_fixed := rfl
  finite h := by
    refine ⟨roundedWritten places (unsignedBits x), _, ?_, readDecimal?_positional _ places,
      roundsTo_roundDiv _ stepsInOne_pos⟩
    rw [fixed, String.toList_ofList, written_of_lt h]
  other h := by
    rw [fixed_of_le h]
    exact inFull_text x

end Calculator.Number
