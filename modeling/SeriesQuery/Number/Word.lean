import SeriesQuery.Number.Digits

/-!
# Words of sixty-four bits

Seconds are computed with in signed words of sixty-four bits.  Every operation is checked: a
result that no word holds is a fault, and its text names the operation.
-/

namespace SeriesQuery.Word

/-- A signed word of sixty-four bits holds the number. -/
def Fits (n : Int) : Prop := Digits.minInt64 ≤ n ∧ n ≤ Digits.maxInt64

instance (n : Int) : Decidable (Fits n) := inferInstanceAs (Decidable (_ ∧ _))

/-- An operation on words. -/
inductive Operation where
  | add
  | subtract
  | multiply
deriving DecidableEq

/-- The text of the fault that an operation has if no word holds its result. -/
def Operation.overflowText : Operation → String
  | .add => "attempt to add with overflow"
  | .subtract => "attempt to subtract with overflow"
  | .multiply => "attempt to multiply with overflow"

theorem fits_iff {n : Int} : Fits n ↔ -9223372036854775808 ≤ n ∧ n ≤ 9223372036854775807 :=
  Iff.rfl

end SeriesQuery.Word
