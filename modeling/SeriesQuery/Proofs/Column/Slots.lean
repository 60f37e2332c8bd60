import SeriesQuery.Frame.Pivot
import SeriesQuery.Proofs.Number.Truncated

/-!
# Slots that nothing was written to

A slot that was written to keeps its cell under every policy.  The others are null,
or a constant, or take the cell of the last slot before them that was written to
(`getElem?_fillSlots_previous`).  `FilledAt` says for one place of a series what a policy
puts there, and `Kind.ConstantCell` what a constant is in a series of a kind.
-/

namespace SeriesQuery

/-! ## Constants -/

/-- What a constant is as a cell of a kind. -/
inductive Kind.ConstantCell (x : Binary64) : (k : Kind) → k.Cell → Prop where
  /-- A whole number is what is left of the constant without its fraction. -/
  | integer {n : Int64} (h : n.toInt = x.view.truncated) : ConstantCell x .integer (some n)
  /-- A double is the constant itself. -/
  | float : ConstantCell x .float (some x)
  /-- Kinds that are not numeric have no cell for it. -/
  | string : ConstantCell x .string none
  | timestamp : ConstantCell x .timestamp none
  | boolean : ConstantCell x .boolean none

theorem Kind.constantCell_eq_iff {k : Kind} {x : Binary64} {cell : k.Cell} :
    k.constantCell x = cell ↔ k.ConstantCell x cell := by
  constructor
  · rintro rfl
    cases k with
    | string => exact .string
    | integer => exact .integer x.toInt_toInt64
    | float => exact .float
    | timestamp => exact .timestamp
    | boolean => exact .boolean
  · intro h
    cases h with
    | integer hn => exact congrArg some (Binary64.toInt64_eq_iff.mpr hn)
    | float => rfl
    | string => rfl
    | timestamp => rfl
    | boolean => rfl

/-! ## Slots -/

namespace SeriesCells

variable {k : Kind}

/-- The cell that a policy gives where there is none, after a cell. -/
def missingCell (k : Kind) (policy : FillPolicy) (previous : k.Cell) : k.Cell :=
  match policy with
  | .null => none
  | .previous => previous
  | .constant x => k.constantCell x

@[simp] theorem fillSlots_some (policy : FillPolicy) (previous cell : k.Cell)
    (slots : List (Option k.Cell)) :
    fillSlots k policy previous (some cell :: slots) = cell :: fillSlots k policy cell slots := rfl

@[simp] theorem fillSlots_none (policy : FillPolicy) (previous : k.Cell)
    (slots : List (Option k.Cell)) :
    fillSlots k policy previous (none :: slots) =
      missingCell k policy previous :: fillSlots k policy (missingCell k policy previous) slots := by
  cases policy <;> rfl

@[simp] theorem length_fillSlots (policy : FillPolicy) (previous : k.Cell)
    (slots : List (Option k.Cell)) :
    (fillSlots k policy previous slots).length = slots.length := by
  induction slots generalizing previous with
  | nil => rfl
  | cons slot slots ih => cases slot <;> simp [ih]

/-- A slot has the cell that was written to it, or the one that the policy gives after the cell
before it. -/
theorem getElem?_fillSlots (policy : FillPolicy) (previous : k.Cell)
    {slots : List (Option k.Cell)} {i : Nat} {slot : Option k.Cell} (h : slots[i]? = some slot) :
    (fillSlots k policy previous slots)[i]? =
      some (slot.getD
        (missingCell k policy ((previous :: fillSlots k policy previous slots)[i]?).join)) := by
  induction slots generalizing previous i with
  | nil => cases h
  | cons s slots ih =>
    cases i with
    | zero =>
      cases h
      cases slot with
      | none => rw [fillSlots_none]; rfl
      | some c => rw [fillSlots_some]; rfl
    | succ i =>
      rw [List.getElem?_cons_succ] at h
      cases s with
      | none =>
        rw [fillSlots_none, List.getElem?_cons_succ, List.getElem?_cons_succ]
        exact ih _ h
      | some c =>
        rw [fillSlots_some, List.getElem?_cons_succ, List.getElem?_cons_succ]
        exact ih _ h

theorem getElem?_fillSlots_of_some {policy : FillPolicy} {previous cell : k.Cell}
    {slots : List (Option k.Cell)} {i : Nat} (h : slots[i]? = some (some cell)) :
    (fillSlots k policy previous slots)[i]? = some cell := by
  rw [getElem?_fillSlots policy previous h, Option.getD_some]

/-- Only the policy that repeats looks at the cell before. -/
theorem missingCell_of_ne {policy : FillPolicy} (h : policy ≠ .previous) (c d : k.Cell) :
    missingCell k policy c = missingCell k policy d := by
  cases policy with
  | null => rfl
  | previous => exact absurd rfl h
  | constant x => rfl

theorem getElem?_fillSlots_of_none {policy : FillPolicy} (hpolicy : policy ≠ .previous)
    {previous : k.Cell} {slots : List (Option k.Cell)} {i : Nat} (h : slots[i]? = some none) :
    (fillSlots k policy previous slots)[i]? = some (missingCell k policy none) := by
  rw [getElem?_fillSlots policy previous h, Option.getD_none, missingCell_of_ne hpolicy]

/-- A place of a series has the cell that a policy puts where there is none. -/
structure FilledAt (policy : FillPolicy) (cells : List k.Cell) (place : Nat) : Prop where
  /-- Nothing is put there under the policy that leaves gaps. -/
  null : policy = .null → cells[place]? = some none
  /-- The policy that repeats has nothing to repeat in the first place. -/
  first : policy = .previous → place = 0 → cells[place]? = some none
  /-- In every other place it puts the cell before. -/
  repeated : policy = .previous → ∀ before, place = before + 1 → cells[place]? = cells[before]?
  /-- A constant is put there as a cell of the kind of the series. -/
  constant : ∀ x, policy = .constant x →
    ∃ cell, cells[place]? = some cell ∧ k.ConstantCell x cell

/-- A slot that nothing was written to takes what the policy puts there. -/
theorem filledAt_fillSlots (policy : FillPolicy) {slots : List (Option k.Cell)} {i : Nat}
    (h : slots[i]? = some none) : FilledAt policy (fillSlots k policy none slots) i where
  null := by
    rintro rfl
    exact getElem?_fillSlots .null none h
  first := by
    rintro rfl rfl
    exact getElem?_fillSlots .previous none h
  repeated := by
    rintro rfl before rfl
    have hlt : before < (fillSlots k .previous none slots).length := by
      rw [length_fillSlots]
      exact Nat.lt_of_succ_lt (List.getElem?_eq_some_iff.mp h).1
    rw [getElem?_fillSlots .previous none h, List.getElem?_cons_succ, List.getElem?_eq_getElem hlt]
    rfl
  constant := by
    rintro x rfl
    exact ⟨_, getElem?_fillSlots (.constant x) none h, Kind.constantCell_eq_iff.mp rfl⟩

/-! ## The last cell written -/

/-- The last cell that was written to slots, or the one before them. -/
def lastWritten (previous : k.Cell) (slots : List (Option k.Cell)) : k.Cell :=
  slots.foldl (fun cell slot => slot.getD cell) previous

@[simp] theorem lastWritten_cons (previous : k.Cell) (slot : Option k.Cell)
    (slots : List (Option k.Cell)) :
    lastWritten previous (slot :: slots) = lastWritten (slot.getD previous) slots := rfl

/-- Without a cell that was written the cell before the slots counts. -/
theorem lastWritten_of_none {previous : k.Cell} {slots : List (Option k.Cell)}
    (h : ∀ slot ∈ slots, slot = none) : lastWritten previous slots = previous := by
  induction slots with
  | nil => rfl
  | cons slot slots ih =>
    rw [lastWritten_cons, h slot List.mem_cons_self]
    exact ih fun s hs => h s (List.mem_cons_of_mem _ hs)

/-- A cell behind which no other was written is the last one. -/
theorem lastWritten_of_last {previous cell : k.Cell} {slots : List (Option k.Cell)} {i : Nat}
    (h : slots[i]? = some (some cell)) (hlast : ∀ slot ∈ slots.drop (i + 1), slot = none) :
    lastWritten previous slots = cell := by
  induction slots generalizing previous i with
  | nil => cases h
  | cons slot slots ih =>
    rw [lastWritten_cons]
    cases i with
    | zero =>
      cases h
      exact lastWritten_of_none hlast
    | succ i => exact ih h hlast

/-- Under the policy that repeats, every slot takes the last cell written up to it. -/
theorem getElem?_fillSlots_previous {previous : k.Cell} {slots : List (Option k.Cell)} {i : Nat}
    (h : i < slots.length) :
    (fillSlots k .previous previous slots)[i]? =
      some (lastWritten previous (slots.take (i + 1))) := by
  induction slots generalizing previous i with
  | nil => cases h
  | cons slot slots ih =>
    rw [List.take_succ_cons, lastWritten_cons]
    cases i with
    | zero => cases slot <;> rfl
    | succ i =>
      have hi : i < slots.length := Nat.lt_of_succ_lt_succ h
      cases slot with
      | none => rw [fillSlots_none, List.getElem?_cons_succ, ih hi]; rfl
      | some c => rw [fillSlots_some, List.getElem?_cons_succ, ih hi]; rfl

end SeriesCells

end SeriesQuery
