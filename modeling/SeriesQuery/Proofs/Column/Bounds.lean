import SeriesQuery.Proofs.Frame.Buckets

/-!
# Rows that are not there

An operation that names rows, of the column or of one that a cell is copied from, is done if all of
them are there, and is refused for one that is not (`Checks`).  This holds for copying a cell to the
end, over another one, and within a column, whatever the kind.  It holds for setting a constant in
a numeric column (`Column.rows_are_checked`).

In a column of another kind nothing is set, and its rows are not looked at: a constant for a row
that is not there is taken without an error (`Column.text_rows_are_unchecked`).
-/

namespace SeriesQuery

/-- A row that an operation names, and the length of the column it is to be a row of. -/
structure NamedRow where
  row : Nat
  length : Nat

/-- An operation is done if all rows that it names are there, and else refused for one that is
not. -/
structure Checks (named : List NamedRow) (result : Except ConversionError Column) : Prop where
  done : (∀ r ∈ named, r.row < r.length) → ∃ c, result = .ok c
  refused : (∃ r ∈ named, r.length ≤ r.row) →
    ∃ r ∈ named, r.length ≤ r.row ∧ result = .error (.rowOutOfBounds r.row r.length)

namespace Checks

variable {result : Except ConversionError Column}

theorem nil {c : Column} (h : result = .ok c) : Checks [] result where
  done _ := ⟨c, h⟩
  refused := fun ⟨_, hr, _⟩ => nomatch hr

/-- The row is looked at before the others. -/
theorem cons {r : NamedRow} {named : List NamedRow}
    (h : r.row < r.length ∧ Checks named result ∨
      r.length ≤ r.row ∧ result = .error (.rowOutOfBounds r.row r.length)) :
    Checks (r :: named) result where
  done hall := by
    obtain ⟨hlt, hrest⟩ := List.forall_mem_cons.mp hall
    rcases h with ⟨-, h⟩ | ⟨hle, -⟩
    · exact h.done hrest
    · exact absurd hlt (Nat.not_lt.mpr hle)
  refused := by
    rintro ⟨s, hs, hle⟩
    rcases h with ⟨hlt, h⟩ | ⟨hle, hresult⟩
    · have hrest : ∃ s ∈ named, s.length ≤ s.row := by
        rcases List.mem_cons.mp hs with rfl | hs
        · exact absurd hlt (Nat.not_lt.mpr hle)
        · exact ⟨s, hs, hle⟩
      obtain ⟨s, hs, hrefused⟩ := h.refused hrest
      exact ⟨s, List.mem_cons_of_mem r hs, hrefused⟩
    · exact ⟨r, List.mem_cons_self, hle, hresult⟩

end Checks

namespace Column

/-! ## Reading and writing a row -/

theorem cellAs_cases {k : Kind} {source : Column} (hkind : source.kind = k) (row : Nat) :
    (row < source.length ∧ ∃ cell, cellAs k source row = .ok cell) ∨
      source.length ≤ row ∧ cellAs k source row = .error (.rowOutOfBounds row source.length) := by
  subst hkind
  rw [cellAs_self]
  by_cases h : row < source.length
  · exact .inl ⟨h, _, if_pos h⟩
  · exact .inr ⟨Nat.le_of_not_lt h, if_neg h⟩

theorem set_cases (c : Column) (row : Nat) (cell : c.kind.Cell) :
    (∃ h : row < c.length, c.set row cell = .ok ⟨c.kind, c.cells.set row cell h⟩) ∨
      c.length ≤ row ∧ c.set row cell = .error (.rowOutOfBounds row c.length) := by
  by_cases h : row < c.length
  · exact .inl ⟨h, dif_pos h⟩
  · exact .inr ⟨Nat.le_of_not_lt h, dif_neg h⟩

/-- A copied cell makes a column of the same kind one cell longer, unless the source has no such
row. -/
theorem pushFrom_cases {c source : Column} (hkind : source.kind = c.kind) (row : Nat) :
    (row < source.length ∧ ∃ c', c.pushFrom source row = .ok c' ∧ c'.kind = c.kind ∧
        c'.length = c.length + 1) ∨
      source.length ≤ row ∧ c.pushFrom source row = .error (.rowOutOfBounds row source.length) := by
  rw [pushFrom]
  rcases cellAs_cases hkind row with ⟨hlt, cell, hcell⟩ | ⟨hle, hcell⟩
  · rw [hcell]
    exact .inl ⟨hlt, c.push cell, rfl, rfl, Array.size_push cell⟩
  · rw [hcell]
    exact .inr ⟨hle, rfl⟩

/-! ## Operations that name rows -/

theorem checks_set (c : Column) (row : Nat) (cell : c.kind.Cell) :
    Checks [⟨row, c.length⟩] (c.set row cell) := by
  refine .cons ?_
  rcases set_cases c row cell with ⟨hlt, hset⟩ | ⟨hle, hset⟩
  · exact .inl ⟨hlt, .nil hset⟩
  · exact .inr ⟨hle, hset⟩

/-- An operation that starts with the reading of a cell, and fails if that does. -/
theorem checks_of_reading {k : Kind} {source : Column} (hkind : source.kind = k) {row : Nat}
    {named : List NamedRow} {result : Except ConversionError Column}
    (hread : ∀ cell, cellAs k source row = .ok cell → Checks named result)
    (hfail : ∀ e, cellAs k source row = .error e → result = .error e) :
    Checks (⟨row, source.length⟩ :: named) result := by
  refine .cons ?_
  rcases cellAs_cases hkind row with ⟨hlt, cell, hcell⟩ | ⟨hle, hcell⟩
  · exact .inl ⟨hlt, hread cell hcell⟩
  · exact .inr ⟨hle, hfail _ hcell⟩

theorem checks_pushFrom {c source : Column} (hkind : source.kind = c.kind) (row : Nat) :
    Checks [⟨row, source.length⟩] (c.pushFrom source row) := by
  refine checks_of_reading hkind (fun cell hcell => .nil (c := c.push cell) ?_) fun e he => ?_
  · rw [pushFrom, hcell]
  · rw [pushFrom, he]

theorem checks_setFrom {c source : Column} (hkind : source.kind = c.kind) (row sourceRow : Nat) :
    Checks [⟨sourceRow, source.length⟩, ⟨row, c.length⟩] (c.setFrom row source sourceRow) := by
  refine checks_of_reading hkind (fun cell hcell => ?_) fun e he => ?_
  · rw [setFrom, hcell]
    exact checks_set c row cell
  · rw [setFrom, he]

theorem checks_copyWithin (c : Column) (source target : Nat) :
    Checks [⟨source, c.length⟩, ⟨target, c.length⟩] (c.copyWithin source target) := by
  have hself : cellAs c.kind c source = c.cell source := dif_pos rfl
  refine checks_of_reading rfl (fun cell hcell => ?_) fun e he => ?_
  · rw [copyWithin, ← hself, hcell]
    exact checks_set c target cell
  · rw [copyWithin, ← hself, he]

theorem setConstant_of_numeric {c : Column} (h : c.kind.isNumeric = true) (row : Nat)
    (x : Binary64) : c.setConstant row x = c.set row (c.kind.constantCell x) := if_pos h

theorem setConstant_of_not_numeric {c : Column} (h : c.kind.isNumeric = false) (row : Nat)
    (x : Binary64) : c.setConstant row x = .ok c := if_neg (Bool.eq_false_iff.mp h)

/-- Rows are checked.  Where a cell is copied between columns of one kind, or within a column of
any kind, and where a constant is set in a numeric column, the operation is done if all rows that it
names are there, and else refused for one that is not.  A constant for a column that is not numeric
is always taken, and changes nothing. -/
theorem rows_are_checked (c source : Column) (row sourceRow target : Nat) (x : Binary64) :
    (source.kind = c.kind →
      Checks [⟨sourceRow, source.length⟩] (c.pushFrom source sourceRow) ∧
      Checks [⟨sourceRow, source.length⟩, ⟨row, c.length⟩] (c.setFrom row source sourceRow)) ∧
    Checks [⟨row, c.length⟩, ⟨target, c.length⟩] (c.copyWithin row target) ∧
    (c.kind.isNumeric = true → Checks [⟨row, c.length⟩] (c.setConstant row x)) ∧
    (c.kind.isNumeric = false → c.setConstant row x = .ok c) := by
  refine ⟨fun hkind => ⟨checks_pushFrom hkind sourceRow, checks_setFrom hkind row sourceRow⟩,
    checks_copyWithin c row target, fun hnumeric => ?_,
    fun hnot => setConstant_of_not_numeric hnot row x⟩
  rw [setConstant_of_numeric hnumeric]
  exact checks_set c row _

/-- Two loads, of which one is missing. -/
def twoLoads : Column := ⟨.integer, #[some 4, none]⟩

/-- One more load. -/
def oneLoad : Column := ⟨.integer, #[some 7]⟩

/-- One host. -/
def oneHost : Column := ⟨.string, #[some "a"]⟩

theorem rows_are_checked_twoLoads : oneLoad.kind = twoLoads.kind ∧
    (∃ c, twoLoads.pushFrom oneLoad 0 = .ok c) ∧
    Checks [⟨0, 1⟩, ⟨2, 2⟩] (twoLoads.setFrom 2 oneLoad 0) ∧
    twoLoads.setFrom 2 oneLoad 0 = .error (.rowOutOfBounds 2 2) ∧
    twoLoads.kind.isNumeric = true ∧ Checks [⟨2, 2⟩] (twoLoads.setConstant 2 ⟨0⟩) ∧
    oneHost.kind.isNumeric = false ∧ oneHost.setConstant 0 ⟨0⟩ = .ok oneHost := by
  obtain ⟨hcopied, -, hconstant, -⟩ := rows_are_checked twoLoads oneLoad 2 0 0 ⟨0⟩
  obtain ⟨-, -, -, hskipped⟩ := rows_are_checked oneHost oneHost 0 0 0 ⟨0⟩
  obtain ⟨hpush, hset⟩ := hcopied rfl
  refine ⟨rfl, hpush.done fun r hr => ?_, hset, rfl, rfl, hconstant rfl, rfl, hskipped rfl⟩
  rw [List.mem_singleton.mp hr]
  exact Nat.zero_lt_one

/-- Of a column of texts the rows are not checked: a constant for its second row is taken, though
it has only one. -/
theorem text_rows_are_unchecked : oneHost.length ≤ 1 ∧ oneHost.setConstant 1 ⟨0⟩ = .ok oneHost ∧
    ¬ Checks [⟨1, oneHost.length⟩] (oneHost.setConstant 1 ⟨0⟩) := by
  have hmissing : oneHost.length ≤ 1 := Nat.le_refl 1
  have htaken : oneHost.setConstant 1 ⟨0⟩ = .ok oneHost := rfl
  refine ⟨hmissing, htaken, fun hchecks => ?_⟩
  obtain ⟨r, -, -, hrefused⟩ := hchecks.refused ⟨_, List.mem_cons_self, hmissing⟩
  cases htaken.symm.trans hrefused

end Column

end SeriesQuery
