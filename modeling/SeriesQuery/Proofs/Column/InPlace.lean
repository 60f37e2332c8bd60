import SeriesQuery.Proofs.Column.Bounds
import SeriesQuery.Proofs.Frame.Apart

/-!
# Columns changed in place

The operations of a column give another column, or an error and no column.  Where the cells are
changed in place there is a column in either case, and what was written before an error is there to
stay.  So each operation is also a program that reads and writes the cells of a column
(`Edit.program`), and it must not write before the last of its checks.

It does not: a program leaves the column that the operation gives, or the column as it was and the
error (`Column.perform_eq`).  All that an operation can do is to fail, to append one cell, to
overwrite the one cell it is aimed at, or nothing (`Column.yields_edited`).  The kind, the length and
the other cells follow from this for one change, and by induction for any sequence of changes
(`Column.edits_keep`).
-/

namespace SeriesQuery

/-- A change of a column. -/
inductive Edit where
  | pushNull
  | pushFrom (source : Column) (row : Nat)
  | setFrom (row : Nat) (source : Column) (sourceRow : Nat)
  | copyWithin (source target : Nat)
  | pushRepeatLast
  | pushConstant (x : Binary64)
  | setConstant (row : Nat) (x : Binary64)
  | pushInstant (t : Instant)

/-- A program on the cells of a column, which are changed where they are. -/
abbrev InPlace (k : Kind) : Type → Type := EStateM ConversionError (Array k.Cell)

namespace InPlace

variable {k : Kind}

def push (cell : k.Cell) : InPlace k Unit := do
  set ((← get).push cell)

def read (row : Nat) : InPlace k k.Cell := do
  let cells ← get
  match cells[row]? with
  | some cell => return cell
  | none => throw (.rowOutOfBounds row cells.size)

/-- Reads a cell of another column, which must have the kind of this one. -/
def readFrom (source : Column) (row : Nat) : InPlace k k.Cell :=
  match Column.cellAs k source row with
  | .ok cell => return cell
  | .error e => throw e

def write (row : Nat) (cell : k.Cell) : InPlace k Unit := do
  let cells ← get
  if h : row < cells.size then set (cells.set row cell h)
  else throw (.rowOutOfBounds row cells.size)

end InPlace

namespace Edit

open InPlace

/-- The change as a program on the cells of a column of the kind. -/
def program (k : Kind) : Edit → InPlace k Unit
  | .pushNull => push none
  | .pushFrom source row => do push (← readFrom source row)
  | .setFrom row source sourceRow => do
    let cell ← readFrom source sourceRow
    write row cell
  | .copyWithin source target => do
    let cell ← read source
    write target cell
  | .pushRepeatLast => do push (← get).back?.join
  | .pushConstant x => push (k.constantCell x)
  | .setConstant row x => if k.isNumeric then write row (k.constantCell x) else return ()
  | .pushInstant t =>
    match k with
    | .timestamp => push (k := .timestamp) (some t)
    | k => throw (.kindMismatch .timestamp k)

/-- Whether the change is to append a cell. -/
def isPush : Edit → Bool
  | .pushNull | .pushFrom .. | .pushRepeatLast | .pushConstant .. | .pushInstant .. => true
  | .setFrom .. | .copyWithin .. | .setConstant .. => false

/-- The row that is to be overwritten. -/
def target? : Edit → Option Nat
  | .setFrom row .. => some row
  | .copyWithin _ target => some target
  | .setConstant row _ => some row
  | .pushNull | .pushFrom .. | .pushRepeatLast | .pushConstant .. | .pushInstant .. => none

end Edit

namespace Column

/-- The column that a change gives. -/
def edited (c : Column) : Edit → Except ConversionError Column
  | .pushNull => .ok c.pushNull
  | .pushFrom source row => c.pushFrom source row
  | .setFrom row source sourceRow => c.setFrom row source sourceRow
  | .copyWithin source target => c.copyWithin source target
  | .pushRepeatLast => .ok c.pushRepeatLast
  | .pushConstant x => .ok (c.pushConstant x)
  | .setConstant row x => c.setConstant row x
  | .pushInstant t => c.pushInstant t

/-- The column that a program leaves, and the error if it fails. -/
def leftBy {k : Kind} : EStateM.Result ConversionError (Array k.Cell) Unit →
    Column × Option ConversionError
  | .ok _ cells => (⟨k, cells⟩, none)
  | .error e cells => (⟨k, cells⟩, some e)

/-- Makes a change in place. -/
def perform (c : Column) (edit : Edit) : Column × Option ConversionError :=
  leftBy ((edit.program c.kind).run c.cells)

/-- The column that takes the place of `c`, unless there is an error. -/
def replacedBy (c : Column) : Except ConversionError Column → Column × Option ConversionError
  | .ok c' => (c', none)
  | .error e => (c, some e)

/-! ## Programs and the columns they give -/

open InPlace

theorem leftBy_write (c : Column) (row : Nat) (cell : c.kind.Cell) :
    leftBy ((write row cell).run c.cells) = c.replacedBy (c.set row cell) := by
  by_cases h : row < c.cells.size
  · simp [write, set, h, leftBy, replacedBy]
  · simp [write, set, h, leftBy, replacedBy, length]

theorem run_readFrom {k : Kind} (source : Column) (row : Nat) (cells : Array k.Cell) :
    (readFrom source row).run cells =
      match cellAs k source row with
      | .ok cell => .ok cell cells
      | .error e => .error e cells := by
  rw [readFrom]
  cases cellAs k source row <;> rfl

theorem run_read (c : Column) (row : Nat) :
    (read row).run c.cells =
      match c.cell row with
      | .ok cell => .ok cell c.cells
      | .error e => .error e c.cells := by
  rw [InPlace.read, EStateM.run_bind, EStateM.run_get, cell]
  dsimp only
  cases c.cells[row]? <;> rfl

/-- A change made in place leaves the column that it gives, or the column as it was. -/
theorem perform_eq (c : Column) (edit : Edit) :
    c.perform edit = c.replacedBy (c.edited edit) := by
  cases edit with
  | pushNull => rfl
  | pushFrom source row =>
    rw [perform, Edit.program, EStateM.run_bind, run_readFrom, edited, pushFrom]
    cases cellAs c.kind source row <;> rfl
  | setFrom row source sourceRow =>
    rw [perform, Edit.program, EStateM.run_bind, run_readFrom, edited, setFrom]
    cases cellAs c.kind source sourceRow with
    | ok cell => exact leftBy_write c row cell
    | error e => rfl
  | copyWithin source target =>
    rw [perform, Edit.program, EStateM.run_bind, run_read, edited, copyWithin]
    cases c.cell source with
    | ok cell => exact leftBy_write c target cell
    | error e => rfl
  | pushRepeatLast => rfl
  | pushConstant x => rfl
  | setConstant row x =>
    rw [perform, Edit.program, edited]
    by_cases h : c.kind.isNumeric = true
    · rw [if_pos h, setConstant_of_numeric h]
      exact leftBy_write c row _
    · rw [if_neg h, setConstant_of_not_numeric (Bool.eq_false_iff.mpr h)]
      rfl
  | pushInstant t =>
    obtain ⟨kind, cells⟩ := c
    cases kind <;> rfl

/-! ## What a change can do -/

/-- What a change can give: an error, a column with one more cell, one with another cell in the row
that it is aimed at, or the column itself. -/
inductive Yields (c : Column) (edit : Edit) : Except ConversionError Column → Prop
  | fails (e : ConversionError) : Yields c edit (.error e)
  | pushes (hpush : edit.isPush = true) (cell : c.kind.Cell) : Yields c edit (.ok (c.push cell))
  | writes (hpush : edit.isPush = false) {row : Nat} (htarget : edit.target? = some row)
      (hrow : row < c.cells.size) (cell : c.kind.Cell) :
      Yields c edit (.ok ⟨c.kind, c.cells.set row cell hrow⟩)
  | skips (hpush : edit.isPush = false) : Yields c edit (.ok c)

theorem yields_set {c : Column} {edit : Edit} {row : Nat} (hpush : edit.isPush = false)
    (htarget : edit.target? = some row) (cell : c.kind.Cell) : c.Yields edit (c.set row cell) := by
  rcases set_cases c row cell with ⟨hrow, hset⟩ | ⟨-, hset⟩
  · rw [hset]
    exact .writes hpush htarget hrow cell
  · rw [hset]
    exact .fails _

theorem yields_edited (c : Column) (edit : Edit) : c.Yields edit (c.edited edit) := by
  cases edit with
  | pushNull => exact .pushes rfl none
  | pushFrom source row =>
    rw [edited, pushFrom]
    cases cellAs c.kind source row with
    | ok cell => exact .pushes rfl cell
    | error e => exact .fails e
  | setFrom row source sourceRow =>
    rw [edited, setFrom]
    cases cellAs c.kind source sourceRow with
    | ok cell => exact yields_set rfl rfl cell
    | error e => exact .fails e
  | copyWithin source target =>
    rw [edited, copyWithin]
    cases c.cell source with
    | ok cell => exact yields_set rfl rfl cell
    | error e => exact .fails e
  | pushRepeatLast => exact .pushes rfl _
  | pushConstant x => exact .pushes rfl _
  | setConstant row x =>
    rw [edited]
    cases h : c.kind.isNumeric with
    | true =>
      rw [setConstant_of_numeric h]
      exact yields_set rfl rfl _
    | false =>
      rw [setConstant_of_not_numeric h]
      exact .skips rfl
  | pushInstant t =>
    obtain ⟨kind, cells⟩ := c
    cases kind with
    | timestamp => exact .pushes (c := ⟨.timestamp, cells⟩) rfl (some t)
    | string => exact .fails _
    | integer => exact .fails _
    | float => exact .fails _
    | boolean => exact .fails _

/-! ## One change -/

/-- The number of cells that a change appends: one if it is to append one and succeeds. -/
def growth (c : Column) (edit : Edit) : Nat :=
  if edit.isPush = true ∧ (c.perform edit).2 = none then 1 else 0

/-- What a change made in place keeps. -/
structure Keeps (c : Column) (edit : Edit) : Prop where
  kind : (c.perform edit).1.kind = c.kind
  length : (c.perform edit).1.length = c.length + c.growth edit
  /-- Every cell that the change is not aimed at stays. -/
  cells : ∀ row < c.length, edit.target? ≠ some row →
    (c.perform edit).1.typedCell row = c.typedCell row
  /-- A change that fails leaves the column as it was. -/
  failed : (c.perform edit).2 ≠ none → (c.perform edit).1 = c

theorem typedCell_push {c : Column} (cell : c.kind.Cell) {row : Nat} (h : row < c.length) :
    (c.push cell).typedCell row = c.typedCell row := by
  have hne : row ≠ c.cells.size := Nat.ne_of_lt h
  have hcell : (c.cells.push cell)[row]? = c.cells[row]? := by
    rw [Array.getElem?_push, if_neg hne]
  exact congrArg (Sigma.mk c.kind) hcell

theorem typedCell_set {c : Column} {row row' : Nat} (hrow : row < c.cells.size)
    (cell : c.kind.Cell) (hne : row ≠ row') :
    Column.typedCell ⟨c.kind, c.cells.set row cell hrow⟩ row' = c.typedCell row' :=
  congrArg (Sigma.mk c.kind) (Array.getElem?_set_ne hrow hne)

/-- A change that leaves the column as it is keeps everything. -/
theorem keeps_of_same {c : Column} {edit : Edit} (hsame : (c.perform edit).1 = c)
    (hgrowth : c.growth edit = 0) : c.Keeps edit where
  kind := by rw [hsame]
  length := by rw [hsame, hgrowth, Nat.add_zero]
  cells row _ _ := by rw [hsame]
  failed _ := hsame

theorem keeps (c : Column) (edit : Edit) : c.Keeps edit := by
  have hyields := c.yields_edited edit
  have hperform := c.perform_eq edit
  generalize c.edited edit = result at hyields hperform
  cases hyields with
  | fails e =>
    refine keeps_of_same ?_ ?_
    · rw [hperform, replacedBy]
    · simp [growth, hperform, replacedBy]
  | pushes hpush cell =>
    have hgrowth : c.growth edit = 1 := by simp [growth, hperform, replacedBy, hpush]
    refine ⟨?_, ?_, fun row hrow _ => ?_, fun hfailed => ?_⟩
    · rw [hperform]
      rfl
    · rw [hperform, hgrowth]
      exact Array.size_push cell
    · rw [hperform]
      exact typedCell_push cell hrow
    · rw [hperform] at hfailed
      exact absurd rfl hfailed
  | writes hpush htarget hrow cell =>
    have hgrowth : c.growth edit = 0 := by simp [growth, hpush]
    refine ⟨?_, ?_, fun row _ hne => ?_, fun hfailed => ?_⟩
    · rw [hperform]
      rfl
    · rw [hperform, hgrowth]
      exact Array.size_set hrow
    · rw [hperform]
      exact typedCell_set hrow cell fun he => hne (he ▸ htarget)
    · rw [hperform] at hfailed
      exact absurd rfl hfailed
  | skips hpush =>
    refine keeps_of_same ?_ ?_
    · rw [hperform, replacedBy]
    · simp [growth, hpush]

/-! ## Any sequence of changes -/

/-- The column after some changes, each of which starts with what the one before has left. -/
def afterAll (c : Column) : List Edit → Column
  | [] => c
  | edit :: edits => afterAll (c.perform edit).1 edits

/-- The number of cells that some changes append, one after the other. -/
def totalGrowth (c : Column) : List Edit → Nat
  | [] => 0
  | edit :: edits => c.growth edit + totalGrowth (c.perform edit).1 edits

theorem kind_afterAll (c : Column) (edits : List Edit) : (c.afterAll edits).kind = c.kind := by
  induction edits generalizing c with
  | nil => rfl
  | cons edit edits ih => rw [afterAll, ih, (c.keeps edit).kind]

theorem length_afterAll (c : Column) (edits : List Edit) :
    (c.afterAll edits).length = c.length + c.totalGrowth edits := by
  induction edits generalizing c with
  | nil => rfl
  | cons edit edits ih => rw [afterAll, ih, (c.keeps edit).length, totalGrowth, Nat.add_assoc]

/-- A cell that no change is aimed at stays. -/
theorem typedCell_afterAll (c : Column) {edits : List Edit} {row : Nat} (hrow : row < c.length)
    (h : ∀ edit ∈ edits, edit.target? ≠ some row) :
    (c.afterAll edits).typedCell row = c.typedCell row := by
  induction edits generalizing c with
  | nil => rfl
  | cons edit edits ih =>
    obtain ⟨hedit, hedits⟩ := List.forall_mem_cons.mp h
    have hkeeps := c.keeps edit
    have hlonger : row < (c.perform edit).1.length := by
      rw [hkeeps.length]
      omega
    rw [afterAll, ih _ hlonger hedits, hkeeps.cells row hrow hedit]

/-- Changes of columns keep kind and length.  After any changes, made in place one after the other,
a column has the kind that it had, and the cells that no change was aimed at.  It is longer by
the number of the changes that were to append a cell and have succeeded.  Whatever change is made
next gives the column that its operation gives, and keeps the same things; if it fails it leaves
the column as it was. -/
theorem edits_keep (c : Column) (edits : List Edit) :
    (c.afterAll edits).kind = c.kind ∧
    (c.afterAll edits).length = c.length + c.totalGrowth edits ∧
    (∀ row < c.length, (∀ edit ∈ edits, edit.target? ≠ some row) →
      (c.afterAll edits).typedCell row = c.typedCell row) ∧
    ∀ next : Edit, (c.afterAll edits).Keeps next ∧
      (c.afterAll edits).perform next =
        (c.afterAll edits).replacedBy ((c.afterAll edits).edited next) :=
  ⟨c.kind_afterAll edits, c.length_afterAll edits,
    fun _ hrow h => c.typedCell_afterAll hrow h,
    fun next => ⟨(c.afterAll edits).keeps next, (c.afterAll edits).perform_eq next⟩⟩

/-- A load is appended, it is overwritten, a row is missing, and a constant takes the first row. -/
def loadEdits : List Edit :=
  [.pushFrom oneLoad 0, .copyWithin 0 2, .setFrom 5 oneLoad 0, .setConstant 0 ⟨0⟩]

theorem edits_keep_loadEdits : (twoLoads.afterAll loadEdits).length = 3 ∧ 1 < twoLoads.length ∧
    (∀ edit ∈ loadEdits, edit.target? ≠ some 1) ∧
    (twoLoads.afterAll loadEdits).typedCell 1 = twoLoads.typedCell 1 ∧
    ((twoLoads.afterAll loadEdits).perform (.setFrom 5 oneLoad 0)).2 ≠ none ∧
    ((twoLoads.afterAll loadEdits).perform (.setFrom 5 oneLoad 0)).1 =
      twoLoads.afterAll loadEdits := by
  obtain ⟨-, hlength, hcells, hnext⟩ := edits_keep twoLoads loadEdits
  have hrow : 1 < twoLoads.length := Nat.lt_succ_self 1
  have haim : ∀ edit ∈ loadEdits, edit.target? ≠ some 1 := by simp [loadEdits, Edit.target?]
  have hfails : ((twoLoads.afterAll loadEdits).perform (.setFrom 5 oneLoad 0)).2 ≠ none := by
    rw [show ((twoLoads.afterAll loadEdits).perform (.setFrom 5 oneLoad 0)).2 =
      some (.rowOutOfBounds 5 3) from rfl]
    exact nofun
  exact ⟨hlength, hrow, haim, hcells 1 hrow haim, hfails, (hnext _).1.failed hfails⟩

end Column

end SeriesQuery
