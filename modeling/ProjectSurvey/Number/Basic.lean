/-!
# Powers and sums of numbers

The same powers and the same zero are meant everywhere, whatever algebra a module sees besides: a
power is that of the number itself, and the sum of an empty list is the number zero.
-/

namespace ProjectSurvey

instance powNat : Pow Nat Nat := ⟨Nat.pow⟩

instance powInt : Pow Int Nat := ⟨Int.pow⟩

instance zeroNat : Zero Nat := ⟨0⟩

instance zeroInt : Zero Int := ⟨0⟩

end ProjectSurvey
