import SeriesQuery.Frame.Pivot
import SeriesQuery.Proofs.Frame.Buckets

/-!
# Rows of a long series

A long frame (`Frame.IsLong`) has a field of ascending times without nulls, value
fields of different names, and as many cells in every field as there are times.  Every
row belongs to the series of its label set, and `Frame.lastCell` is the cell a series
has in the last row whose time has a property.

The distinct times, into which the rows are spread, are strictly ascending
(`distinct_pairwise`), and the slot of a row is the place of its time among them
(`getElem?_slotsFrom`).
-/

namespace SeriesQuery

/-! ## The last row -/

/-- The last of so many rows that has a property. -/
def lastRow? (p : Nat → Bool) : (count : Nat) → Option Nat
  | 0 => none
  | count + 1 => if p count then some count else lastRow? p count

theorem lastRow?_eq_some_iff {p : Nat → Bool} {count row : Nat} :
    lastRow? p count = some row ↔
      row < count ∧ p row = true ∧ ∀ later, row < later → later < count → p later = false := by
  induction count with
  | zero => simp [lastRow?]
  | succ count ih =>
    rw [lastRow?]
    by_cases hp : p count = true
    · rw [if_pos hp, Option.some.injEq]
      constructor
      · rintro rfl
        exact ⟨Nat.lt_succ_self _, hp, fun later hl hlt => by omega⟩
      · rintro ⟨hlt, -, hlater⟩
        by_contra hne
        have := hlater count (by omega) (Nat.lt_succ_self _)
        rw [hp] at this
        cases this
    · rw [if_neg hp, ih]
      constructor
      · rintro ⟨hlt, hrow, hlater⟩
        refine ⟨Nat.lt_succ_of_lt hlt, hrow, fun later hl hlt' => ?_⟩
        rcases Nat.lt_succ_iff_lt_or_eq.mp hlt' with h | rfl
        · exact hlater later hl h
        · exact Bool.eq_false_iff.mpr hp
      · rintro ⟨hlt, hrow, hlater⟩
        have hne : row ≠ count := fun he => hp (he ▸ hrow)
        exact ⟨by omega, hrow, fun later hl hlt' => hlater later hl (by omega)⟩

theorem lastRow?_eq_none_iff {p : Nat → Bool} {count : Nat} :
    lastRow? p count = none ↔ ∀ row < count, p row = false := by
  induction count with
  | zero => simp [lastRow?]
  | succ count ih =>
    rw [lastRow?]
    by_cases hp : p count = true
    · rw [if_pos hp]
      constructor
      · intro h
        cases h
      · intro h
        rw [h count (Nat.lt_succ_self _)] at hp
        cases hp
    · rw [if_neg hp, ih]
      constructor
      · intro h row hrow
        rcases Nat.lt_succ_iff_lt_or_eq.mp hrow with hlt | rfl
        · exact h row hlt
        · exact Bool.eq_false_iff.mpr hp
      · exact fun h row hrow => h row (Nat.lt_succ_of_lt hrow)

theorem lastRow?_congr {p q : Nat → Bool} {count : Nat} (h : ∀ row < count, p row = q row) :
    lastRow? p count = lastRow? q count := by
  induction count with
  | zero => rfl
  | succ count ih =>
    rw [lastRow?, lastRow?, h count (Nat.lt_succ_self _),
      ih fun row hrow => h row (Nat.lt_succ_of_lt hrow)]

/-! ## The series of a row -/

namespace Frame

/-- The fields of values. -/
def valueFields (f : Frame) : List Field := f.schema.valueIndices.filterMap (f.fields[·]?)

/-- The fields of labels. -/
def labelFields (f : Frame) : List Field := f.schema.labelIndices.filterMap (f.fields[·]?)

/-- The label set of a row.  Of several label fields with one name the last counts. -/
def labelSet (f : Frame) (row : Nat) : Labels :=
  .ofList (f.labelFields.map fun g => (g.name, g.column.labelText row))

/-- A long series whose rows are in the order of the given times. -/
structure IsLong (f : Frame) (times : List Instant) : Prop where
  /-- Its fields are those of a long series. -/
  shape : f.schema.shape = .long
  /-- The times are in its field of times, and none is null. -/
  time : (f.fields[f.schema.timeIndex]?).map Field.column = some (Pivot.timeColumn times)
  /-- All fields have as many rows as there are times. -/
  aligned : ∀ g ∈ f.fields, g.column.length = times.length
  /-- The times ascend. -/
  ascend : times.Pairwise (· ≤ ·)
  /-- No two value fields have the same name. -/
  distinct : (f.valueFields.map Field.name).Nodup

/-- Whether a row belongs to a label set and has a time with a property. -/
def isRowOf (f : Frame) (times : List Instant) (labels : Labels) (p : Instant → Bool)
    (row : Nat) : Bool :=
  decide (f.labelSet row = labels) && (times[row]?).any p

theorem isRowOf_iff {f : Frame} {times : List Instant} {labels : Labels} {p : Instant → Bool}
    {row : Nat} :
    f.isRowOf times labels p row = true ↔
      f.labelSet row = labels ∧ ∃ time, times[row]? = some time ∧ p time = true := by
  rw [isRowOf, Bool.and_eq_true, decide_eq_true_eq, Option.any_eq_true]

/-- The cell that a column has in the last of so many rows that belongs to a label set
and has a time with a property, if there is such a row. -/
def lastCell (f : Frame) (times : List Instant) (labels : Labels) (c : Column)
    (p : Instant → Bool) (count : Nat) : Option c.kind.Cell :=
  (lastRow? (f.isRowOf times labels p) count).map c.cellAt

theorem lastCell_congr {f : Frame} {times : List Instant} {labels : Labels} {c : Column}
    {p q : Instant → Bool} {count : Nat} (h : ∀ time ∈ times, p time = q time) :
    f.lastCell times labels c p count = f.lastCell times labels c q count := by
  unfold lastCell
  rw [lastRow?_congr fun row _ => ?_]
  unfold isRowOf
  cases hrow : times[row]? with
  | none => rfl
  | some time => rw [Option.any_some, Option.any_some, h time (List.mem_of_getElem? hrow)]

/-- There is no cell if no row of the labels has a time with the property. -/
theorem lastCell_eq_none_iff {f : Frame} {times : List Instant} {labels : Labels} {c : Column}
    {p : Instant → Bool} {count : Nat} :
    f.lastCell times labels c p count = none ↔ ∀ row < count, f.labelSet row = labels →
      ∀ time, times[row]? = some time → p time = false := by
  rw [lastCell, Option.map_eq_none_iff, lastRow?_eq_none_iff]
  simp only [Bool.eq_false_iff, Ne, isRowOf_iff]
  constructor
  · intro h row hrow hlabels time htime hp
    exact h row hrow ⟨hlabels, time, htime, hp⟩
  · rintro h row hrow ⟨hlabels, time, htime, hp⟩
    exact h row hrow hlabels time htime hp

/-- The cell is that of a row of the labels whose time has the property, if no later row
is one. -/
theorem lastCell_eq_some_iff {f : Frame} {times : List Instant} {labels : Labels} {c : Column}
    {p : Instant → Bool} {count : Nat} {cell : c.kind.Cell} :
    f.lastCell times labels c p count = some cell ↔ ∃ row < count, f.labelSet row = labels ∧
      (∃ time, times[row]? = some time ∧ p time = true) ∧ c.cellAt row = cell ∧
        ∀ later, row < later → later < count → f.labelSet later = labels →
          ∀ time, times[later]? = some time → p time = false := by
  rw [lastCell, Option.map_eq_some_iff]
  simp only [lastRow?_eq_some_iff, Bool.eq_false_iff, Ne, isRowOf_iff]
  constructor
  · rintro ⟨row, ⟨hrow, ⟨hlabels, htime⟩, hlater⟩, hcell⟩
    refine ⟨row, hrow, hlabels, htime, hcell, fun later hl hlt hof time ht hp => ?_⟩
    exact hlater later hl hlt ⟨hof, time, ht, hp⟩
  · rintro ⟨row, hrow, hlabels, htime, hcell, hlater⟩
    refine ⟨row, ⟨hrow, ⟨hlabels, htime⟩, fun later hl hlt hof => ?_⟩, hcell⟩
    obtain ⟨hof, time, ht, hp⟩ := hof
    exact hlater later hl hlt hof time ht hp

end Frame

/-! ## The distinct times -/

namespace Pivot

theorem head?_distinct (times : List Instant) : (distinct times).head? = times.head? := by
  induction times with
  | nil => rfl
  | cons s times ih =>
    cases times with
    | nil => rfl
    | cons t times =>
      rw [distinct]
      by_cases h : s = t
      · rw [if_pos h, ih, h]
        rfl
      · rw [if_neg h]
        rfl

/-- The distinct times are the times. -/
@[simp] theorem mem_distinct {times : List Instant} {time : Instant} :
    time ∈ distinct times ↔ time ∈ times := by
  induction times with
  | nil => rfl
  | cons s times ih =>
    cases times with
    | nil => rfl
    | cons t times =>
      rw [distinct, List.mem_cons (b := s), ← ih]
      by_cases h : s = t
      · rw [if_pos h]
        refine ⟨.inr, fun hm => hm.elim (fun he => ?_) id⟩
        exact ih.mpr (he ▸ h ▸ List.mem_cons_self)
      · rw [if_neg h, List.mem_cons]

/-- Distinct ascending times ascend strictly. -/
theorem distinct_pairwise {times : List Instant} (hasc : times.Pairwise (· ≤ ·)) :
    (distinct times).Pairwise (· < ·) := by
  induction times with
  | nil => exact List.Pairwise.nil
  | cons s times ih =>
    rw [List.pairwise_cons] at hasc
    cases times with
    | nil => exact List.pairwise_singleton _ _
    | cons t times =>
      rw [distinct]
      by_cases h : s = t
      · rw [if_pos h]
        exact ih hasc.2
      · rw [if_neg h, List.pairwise_cons]
        refine ⟨fun u hu => ?_, ih hasc.2⟩
        have hst : s < t := lt_of_le_of_ne (hasc.1 t List.mem_cons_self) h
        rcases List.mem_cons.mp (mem_distinct.mp hu) with rfl | hu
        · exact hst
        · exact lt_of_lt_of_le hst ((List.pairwise_cons.mp hasc.2).1 u hu)

@[simp] theorem length_slotsFrom (slot : Nat) (times : List Instant) :
    (slotsFrom slot times).length = times.length := by
  induction times generalizing slot with
  | nil => rfl
  | cons s times ih =>
    cases times with
    | nil => rfl
    | cons t times => rw [slotsFrom, List.length_cons, List.length_cons, ih]

/-- The slot of a row is the place of its time among the distinct times. -/
theorem getElem?_slotsFrom (slot : Nat) {row : Nat} {times : List Instant} {time : Instant}
    (h : times[row]? = some time) :
    ∃ place, (slotsFrom slot times)[row]? = some (slot + place) ∧
      (distinct times)[place]? = some time := by
  induction times generalizing slot row with
  | nil => cases h
  | cons s times ih =>
    cases times with
    | nil =>
      cases row with
      | zero => exact ⟨0, rfl, h⟩
      | succ row => cases h
    | cons t times =>
      rw [slotsFrom]
      cases row with
      | zero =>
        refine ⟨0, rfl, ?_⟩
        rw [← List.head?_eq_getElem?, head?_distinct]
        exact h
      | succ row =>
        rw [List.getElem?_cons_succ] at h ⊢
        by_cases hst : s = t
        · obtain ⟨place, hplace, htime⟩ := ih slot h
          refine ⟨place, by rw [if_pos hst, hplace], ?_⟩
          rw [distinct, if_pos hst, htime]
        · obtain ⟨place, hplace, htime⟩ := ih (slot + 1) h
          refine ⟨place + 1, by rw [if_neg hst, hplace]; congr 1; omega, ?_⟩
          rw [distinct, if_neg hst, List.getElem?_cons_succ, htime]

end Pivot

end SeriesQuery
