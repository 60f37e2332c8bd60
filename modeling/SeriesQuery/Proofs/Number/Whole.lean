import Mathlib.Data.Nat.Digits.Defs
import SeriesQuery.Proofs.Number.Numeral
import SeriesQuery.Text.Blank

/-!
# The values of whole numbers

A whole number is written as one or more digits behind a sign, which may be left out, and its value
is read off the places of the digits (`Writes`).  There may be any number of zeros in front, so the
length of a text says nothing about its value.

The reader gives exactly the value that is written (`readInt?_eq_some_iff`), and the reader of
sixty-four signed bits gives it exactly if it fits these (`readInt64?_eq_some_iff`).
-/

namespace SeriesQuery.Numeral

/-- The value of digits, the last of which stands in the place of the ones. -/
def placeValue (digits : List Char) : Nat :=
  Nat.ofDigits 10 (digits.reverse.map fun c => c.toNat - '0'.toNat)

/-- A text that writes a whole number, with a sign or without. -/
inductive Writes : Int → List Char → Prop where
  | unsigned {digits : List Char} (are : AreDigits digits) (ne_nil : digits ≠ []) :
      Writes (placeValue digits) digits
  | plus {digits : List Char} (are : AreDigits digits) (ne_nil : digits ≠ []) :
      Writes (placeValue digits) ('+' :: digits)
  | minus {digits : List Char} (are : AreDigits digits) (ne_nil : digits ≠ []) :
      Writes (-placeValue digits) ('-' :: digits)

/-! ## Reading -/

/-- The value that is carried along the digits counts as many places higher as there are digits
behind it. -/
theorem ofDigitChars_eq (digits : List Char) (carried : Nat) :
    Nat.ofDigitChars 10 digits carried = placeValue digits + 10 ^ digits.length * carried := by
  induction digits generalizing carried with
  | nil => simp [placeValue]
  | cons c digits ih =>
    rw [Nat.ofDigitChars_cons, ih, placeValue, placeValue, List.reverse_cons, List.map_append,
      Nat.ofDigits_append, List.length_map, List.length_reverse, List.map_singleton,
      Nat.ofDigits_singleton, List.length_cons]
    ring

theorem value_eq_placeValue (digits : List Char) : Digits.value digits = placeValue digits := by
  rw [Digits.value, ofDigitChars_eq, Nat.mul_zero, Nat.add_zero]

/-- What the reader makes of a text when it has taken off the sign. -/
theorem readInt?_of_splitSign {cs digits : List Char} {negative : Bool} {v : Int}
    (h : Digits.splitSign cs = (negative, digits)) :
    Digits.readInt? cs = some v ↔ AreDigits digits ∧ digits ≠ [] ∧
      v = if negative then -(placeValue digits : Int) else placeValue digits := by
  rw [Digits.readInt?, h, areDigits_iff, ← List.all_eq_true, ← value_eq_placeValue]
  dsimp only
  split
  next hread => rw [Option.some.injEq, eq_comm, and_iff_right hread.2, and_iff_right hread.1]
  next hread =>
    refine ⟨fun h => ?_, fun h => absurd ⟨h.2.1, h.1⟩ hread⟩
    cases h

/-- The reader takes the texts that write whole numbers, and gives their values. -/
theorem readInt?_eq_some_iff {cs : List Char} {v : Int} :
    Digits.readInt? cs = some v ↔ Writes v cs := by
  constructor
  · intro h
    rcases splitSign_cases cs with ⟨digits, rfl⟩ | ⟨digits, rfl⟩ | hnone
    · obtain ⟨are, ne_nil, rfl⟩ := (readInt?_of_splitSign rfl).mp h
      exact .minus are ne_nil
    · obtain ⟨are, ne_nil, rfl⟩ := (readInt?_of_splitSign rfl).mp h
      exact .plus are ne_nil
    · obtain ⟨are, ne_nil, rfl⟩ := (readInt?_of_splitSign hnone).mp h
      exact .unsigned are ne_nil
  · intro h
    cases h with
    | unsigned are ne_nil =>
      have hnone := splitSign_of_noSign (noSign_of_digits are ne_nil)
      exact (readInt?_of_splitSign hnone).mpr ⟨are, ne_nil, rfl⟩
    | plus are ne_nil => exact (readInt?_of_splitSign rfl).mpr ⟨are, ne_nil, rfl⟩
    | minus are ne_nil => exact (readInt?_of_splitSign rfl).mpr ⟨are, ne_nil, rfl⟩

/-- A whole number is narrowed to the integer that has its value, if there is one. -/
theorem toInt64?_eq_some_iff {v : Int} {n : Int64} : Digits.toInt64? v = some n ↔ n.toInt = v := by
  constructor
  · exact Digits.toInt_of_toInt64?
  · rintro rfl
    have hle := n.le_toInt
    have hlt := n.toInt_lt
    rw [Digits.toInt64?, if_pos, Int64.ofInt_toInt]
    simp only [Digits.minInt64, Digits.maxInt64]
    omega

theorem readInt64?_eq_some_iff {cs : List Char} {n : Int64} :
    Digits.readInt64? cs = some n ↔ Writes n.toInt cs := by
  rw [Digits.readInt64?, Option.bind_eq_some_iff]
  constructor
  · rintro ⟨v, hv, hn⟩
    rw [toInt64?_eq_some_iff.mp hn]
    exact readInt?_eq_some_iff.mp hv
  · intro h
    exact ⟨n.toInt, readInt?_eq_some_iff.mpr h, toInt64?_eq_some_iff.mpr rfl⟩

/-! ## Writing -/

theorem areDigits_ofNat (n : Nat) : AreDigits (Digits.ofNat n) :=
  areDigits_iff.mpr fun _ => Digits.isDigit_of_mem_ofNat

theorem placeValue_ofNat (n : Nat) : placeValue (Digits.ofNat n) = n := by
  rw [← value_eq_placeValue, Digits.value_ofNat]

theorem writes_ofInt (v : Int) : Writes v (Digits.ofInt v) := by
  have are := areDigits_ofNat v.natAbs
  have ne_nil := Digits.ofNat_ne_nil v.natAbs
  rw [Digits.ofInt]
  split
  next hneg =>
    have h := Writes.minus are ne_nil
    rwa [placeValue_ofNat, show -(v.natAbs : Int) = v by omega] at h
  next hneg =>
    have h := Writes.unsigned are ne_nil
    rwa [placeValue_ofNat, show (v.natAbs : Int) = v by omega] at h

/-- There are no blanks in a whole number. -/
theorem Writes.isBlank_eq_false {cs : List Char} {v : Int} (h : Writes v cs) {c : Char}
    (hc : c ∈ cs) : Text.isBlank c = false := by
  have hdigit {digits : List Char} (are : AreDigits digits) (hc : c ∈ digits) :
      Text.isBlank c = false :=
    Text.isBlank_of_isDigit (areDigits_iff.mp are c hc)
  cases h with
  | unsigned are _ => exact hdigit are hc
  | plus are _ =>
    rcases List.mem_cons.mp hc with rfl | hc
    · decide
    · exact hdigit are hc
  | minus are _ =>
    rcases List.mem_cons.mp hc with rfl | hc
    · decide
    · exact hdigit are hc

end SeriesQuery.Numeral
