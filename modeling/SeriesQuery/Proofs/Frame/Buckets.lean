import SeriesQuery.Proofs.Column.Slots
import SeriesQuery.Proofs.Frame.Walk

/-!
# The rows of the buckets

The frame that filling the gaps gives, field by field.  Every field keeps its name,
its labels and its kind.  The field of times holds the starts of the buckets, and
every other field a slot for each bucket: the cell of the first row of that time, or
nothing if there is no such row.  The slots nothing stands in are filled as those of
a spread series are (`SeriesCells.fillSlots`).

`fill_eq_ok_iff` says exactly when the filling succeeds and what it gives then.
-/

namespace SeriesQuery

/-- The cell of a row, null if there is no such row. -/
def Column.cellAt (c : Column) (row : Nat) : c.kind.Cell := (c.cells[row]?).join

/-- An instant as a cell; kinds other than that of instants take null. -/
def Kind.instantCell : (k : Kind) → Instant → k.Cell
  | .timestamp, t => some t
  | .string, _ => none
  | .integer, _ => none
  | .float, _ => none
  | .boolean, _ => none

/-- A field with other cells of its kind. -/
def Field.withCells (g : Field) (cells : List g.column.kind.Cell) : Field :=
  { g with column := ⟨g.column.kind, cells.toArray⟩ }

theorem Column.cellAt_eq {c : Column} {row : Nat} (h : row < c.length) :
    c.cells[row]? = some (c.cellAt row) := by
  unfold Column.cellAt
  rw [Array.getElem?_eq_getElem h]
  rfl

/-- A column has its own kind. -/
theorem Column.cellAs_self (c : Column) (row : Nat) :
    Column.cellAs c.kind c row =
      if row < c.length then .ok (c.cellAt row) else .error (.rowOutOfBounds row c.length) := by
  unfold Column.cellAs Column.cell
  rw [dif_pos rfl]
  by_cases h : row < c.length
  · rw [if_pos h, Column.cellAt_eq h]
  · rw [if_neg h, Array.getElem?_eq_none (Nat.le_of_not_lt h)]

/-- A column of times without nulls. -/
theorem Column.cellAt_timeColumn {times : List Instant} {row : Nat} {time : Instant}
    (h : times[row]? = some time) :
    (Pivot.timeColumn times).cellAt row = Kind.instantCell .timestamp time := by
  show ((times.map some).toArray[row]?).join = some time
  rw [List.getElem?_toArray, List.getElem?_map, h]
  rfl

/-! ## Appending a row field by field -/

namespace Fill

/-- Fields with other cells, which may depend on the place of the field. -/
def columns (source : List Field) (cells : Nat → (g : Field) → List g.column.kind.Cell) :
    List Field :=
  source.mapIdx fun i g => g.withCells (cells i g)

theorem columns_cons (g : Field) (source : List Field)
    (cells : Nat → (g : Field) → List g.column.kind.Cell) :
    columns (g :: source) cells =
      g.withCells (cells 0 g) :: columns source fun i => cells (i + 1) :=
  List.mapIdx_cons

/-- A copied cell is the cell of the row, if the source has the row. -/
theorem pushFrom_withCells (g : Field) (cells : List g.column.kind.Cell) (row : Nat) :
    (g.withCells cells).column.pushFrom g.column row =
      if row < g.column.length then .ok (g.withCells (cells ++ [g.column.cellAt row])).column
      else .error (.rowOutOfBounds row g.column.length) := by
  have hcell : Column.cellAs (g.withCells cells).column.kind g.column row =
      if row < g.column.length then .ok (g.column.cellAt row)
      else .error (.rowOutOfBounds row g.column.length) := Column.cellAs_self g.column row
  rw [Column.pushFrom, hcell]
  by_cases h : row < g.column.length
  · rw [if_pos h, if_pos h]
    simp [Field.withCells, Column.push]
  · rw [if_neg h, if_neg h]

/-- A row that all fields of the source have is copied to every field. -/
theorem appendRow_columns {source : List Field} {row : Nat}
    (cells : Nat → (g : Field) → List g.column.kind.Cell)
    (h : ∀ g ∈ source, row < g.column.length) :
    Frame.appendRow row (columns source cells) source =
      (columns source fun i g => cells i g ++ [g.column.cellAt row], none) := by
  induction source generalizing cells with
  | nil => rfl
  | cons g source ih =>
    rw [columns_cons, Frame.appendRow, pushFrom_withCells, if_pos (h g List.mem_cons_self)]
    dsimp only
    rw [ih _ fun g' hg' => h g' (List.mem_cons_of_mem _ hg'), columns_cons]
    rfl

/-- A row that a field of the source does not have is not copied. -/
theorem appendRow_columns_fails {source : List Field} {row : Nat}
    (cells : Nat → (g : Field) → List g.column.kind.Cell)
    (h : ¬ ∀ g ∈ source, row < g.column.length) :
    ∃ e, (Frame.appendRow row (columns source cells) source).2 = some e := by
  induction source generalizing cells with
  | nil => exact absurd (fun g hg => nomatch hg) h
  | cons g source ih =>
    rw [columns_cons, Frame.appendRow, pushFrom_withCells]
    by_cases hg : row < g.column.length
    · rw [if_pos hg]
      have hrest : ¬ ∀ g ∈ source, row < g.column.length := fun hall =>
        h fun g' hg' => (List.mem_cons.mp hg').elim (fun he => he ▸ hg) (hall g')
      obtain ⟨e, he⟩ := ih (fun i => cells (i + 1)) hrest
      exact ⟨e, he⟩
    · rw [if_neg hg]
      exact ⟨_, rfl⟩

/-- The cell that is appended to a field after a cell where the source has no row. -/
def filledCell (timeIndex : Nat) (policy : FillPolicy) (bucket : Instant) (index : Nat)
    (g : Field) (previous : g.column.kind.Cell) : g.column.kind.Cell :=
  if index = timeIndex then g.column.kind.instantCell bucket
  else SeriesCells.missingCell g.column.kind policy previous

theorem pushMissing_withCells (policy : FillPolicy) (g : Field)
    (cells : List g.column.kind.Cell) :
    pushMissing policy (g.withCells cells).column =
      (g.withCells
        (cells ++ [SeriesCells.missingCell g.column.kind policy cells.getLast?.join])).column := by
  cases policy <;>
    simp [pushMissing, Field.withCells, Column.pushNull, Column.pushRepeatLast,
      Column.pushConstant, Column.push, SeriesCells.missingCell]

theorem pushInstant_withCells {g : Field} (hkind : g.column.kind = .timestamp)
    (cells : List g.column.kind.Cell) (bucket : Instant) :
    (g.withCells cells).column.pushInstant bucket =
      .ok (g.withCells (cells ++ [g.column.kind.instantCell bucket])).column := by
  obtain ⟨name, labels, ⟨kind, array⟩⟩ := g
  dsimp only at hkind
  subst hkind
  simp [Field.withCells, Column.pushInstant, Kind.instantCell]

/-- A filled row is appended to every field, if the field of times holds instants. -/
theorem appendMissing_columns {source : List Field} {timeIndex : Nat} (bucket : Instant)
    (policy : FillPolicy) (index : Nat) (cells : Nat → (g : Field) → List g.column.kind.Cell)
    (h : ∀ i g, source[i]? = some g → index + i = timeIndex → g.column.kind = .timestamp) :
    appendMissing timeIndex bucket policy index (columns source cells) =
      .ok (columns source fun i g =>
        cells i g ++
          [filledCell timeIndex policy bucket (index + i) g (cells i g).getLast?.join]) := by
  induction source generalizing index cells with
  | nil => rfl
  | cons g source ih =>
    have htail : ∀ i g, source[i]? = some g → index + 1 + i = timeIndex →
        g.column.kind = .timestamp := fun i g hg hi =>
      h (i + 1) g (by rwa [List.getElem?_cons_succ]) (by omega)
    rw [columns_cons, columns_cons, appendMissing, ih _ _ htail]
    have hindex : ∀ i, index + 1 + i = index + (i + 1) := fun i => by omega
    by_cases hi : index = timeIndex
    · have hkind := h 0 g rfl (by omega)
      simp only [if_pos hi, pushInstant_withCells hkind, filledCell, Nat.add_zero, hindex]
      rfl
    · simp only [if_neg hi, pushMissing_withCells, filledCell, Nat.add_zero, hindex]
      rfl

/-! ## The rows of all buckets -/

/-- The starts of so many buckets, the first of which is at `second`, if instants
start there. -/
def buckets? (width : Int) : (count : Nat) → (second : Int) → Option (List Instant)
  | 0, _ => some []
  | count + 1, second =>
    match Instant.ofSecond? second, buckets? width count (second + width) with
    | some bucket, some buckets => some (bucket :: buckets)
    | _, _ => none

/-- The cell of a bucket in a field, after a cell. -/
def bucketCell (timeIndex : Nat) (policy : FillPolicy) (times : List Instant) (index : Nat)
    (g : Field) (previous : g.column.kind.Cell) (bucket : Instant) : g.column.kind.Cell :=
  match firstRow? times bucket with
  | some row => g.column.cellAt row
  | none => filledCell timeIndex policy bucket index g previous

/-- The cells of buckets in a field, after a cell. -/
def bucketCells (timeIndex : Nat) (policy : FillPolicy) (times : List Instant) (index : Nat)
    (g : Field) (previous : g.column.kind.Cell) : List Instant → List g.column.kind.Cell
  | [] => []
  | bucket :: buckets =>
    bucketCell timeIndex policy times index g previous bucket ::
      bucketCells timeIndex policy times index g
        (bucketCell timeIndex policy times index g previous bucket) buckets

/-- Whether all fields have the rows that the buckets are copied from. -/
def HasRows (source : List Field) (times buckets : List Instant) : Prop :=
  ∀ bucket ∈ buckets, ∀ row, firstRow? times bucket = some row →
    ∀ g ∈ source, row < g.column.length

theorem hasRows_cons {source : List Field} {times buckets : List Instant} {bucket : Instant} :
    HasRows source times (bucket :: buckets) ↔
      (∀ row, firstRow? times bucket = some row → ∀ g ∈ source, row < g.column.length) ∧
        HasRows source times buckets :=
  List.forall_mem_cons

/-- The row of a bucket is appended exactly if all fields have the row it is copied
from. -/
theorem appendAt_columns {source : List Field} {timeIndex : Nat}
    (htime : ∀ g, source[timeIndex]? = some g → g.column.kind = .timestamp)
    (times : List Instant) (policy : FillPolicy) (bucket : Instant)
    (cells : Nat → (g : Field) → List g.column.kind.Cell) (out : List Field) :
    appendAt source timeIndex policy times bucket (columns source cells) = .ok out ↔
      (∀ row, firstRow? times bucket = some row → ∀ g ∈ source, row < g.column.length) ∧
        out = columns source fun i g => cells i g ++
          [bucketCell timeIndex policy times i g (cells i g).getLast?.join bucket] := by
  unfold appendAt bucketCell
  cases hrow : firstRow? times bucket with
  | none =>
    have hkind : ∀ i g, source[i]? = some g → 0 + i = timeIndex →
        g.column.kind = .timestamp := by
      intro i g hg hi
      rw [Nat.zero_add] at hi
      exact htime g (hi ▸ hg)
    simp only [appendMissing_columns bucket policy 0 cells hkind, Nat.zero_add, Except.ok.injEq]
    exact ⟨fun h => ⟨fun _ hr => (nomatch hr), h.symm⟩, fun h => h.2.symm⟩
  | some row =>
    by_cases hlt : ∀ g ∈ source, row < g.column.length
    · simp only [appendRow_columns cells hlt, Except.ok.injEq]
      exact ⟨fun h => ⟨fun _ hr => Option.some.inj hr ▸ hlt, h.symm⟩, fun h => h.2.symm⟩
    · obtain ⟨e, he⟩ := appendRow_columns_fails cells hlt
      obtain ⟨fields, heq⟩ : ∃ fields,
          Frame.appendRow row (columns source cells) source = (fields, some e) :=
        ⟨_, Prod.ext rfl he⟩
      simp only [heq]
      constructor
      · intro h
        cases h
      · intro h
        exact absurd (h.1 row rfl) hlt

/-- The rows of the buckets are appended exactly if the buckets start at instants and
all fields have the rows they are copied from. -/
theorem steps_columns {source : List Field} {timeIndex : Nat}
    (htime : ∀ g, source[timeIndex]? = some g → g.column.kind = .timestamp)
    (times : List Instant) (policy : FillPolicy) (width : Int) (count : Nat) (second : Int)
    (cells : Nat → (g : Field) → List g.column.kind.Cell) (out : List Field) :
    steps source timeIndex policy times width count second (columns source cells) = .ok out ↔
      ∃ buckets, buckets? width count second = some buckets ∧ HasRows source times buckets ∧
        out = columns source fun i g => cells i g ++
          bucketCells timeIndex policy times i g (cells i g).getLast?.join buckets := by
  induction count generalizing second cells with
  | zero =>
    simp only [steps, buckets?, Option.some.injEq, Except.ok.injEq]
    constructor
    · rintro rfl
      exact ⟨[], rfl, fun _ h => absurd h List.not_mem_nil,
        by simp only [bucketCells, List.append_nil]⟩
    · rintro ⟨_, rfl, _, rfl⟩
      simp only [bucketCells, List.append_nil]
  | succ count ih =>
    simp only [steps, buckets?]
    cases hb : Instant.ofSecond? second with
    | none => simp
    | some bucket =>
      have hone := appendAt_columns htime times policy bucket cells
      constructor
      · intro h
        cases ha : appendAt source timeIndex policy times bucket (columns source cells) with
        | error e => simp [ha] at h
        | ok fields =>
          obtain ⟨hrow, rfl⟩ := (hone fields).mp ha
          simp only [ha] at h
          obtain ⟨buckets, hbuckets, hrows, rfl⟩ := (ih _ _).mp h
          refine ⟨bucket :: buckets, by simp [hbuckets], hasRows_cons.mpr ⟨hrow, hrows⟩, ?_⟩
          simp [bucketCells]
      · rintro ⟨buckets, hbuckets, hrows, rfl⟩
        cases hrest : buckets? width count (second + width) with
        | none => simp [hrest] at hbuckets
        | some rest =>
          simp only [hrest, Option.some.injEq] at hbuckets
          subst hbuckets
          obtain ⟨hrow, hrows⟩ := hasRows_cons.mp hrows
          simp only [(hone _).mpr ⟨hrow, rfl⟩]
          refine (ih _ _).mpr ⟨rest, hrest, hrows, ?_⟩
          simp [bucketCells]

/-! ## The starts of the buckets -/

/-- The buckets are as many as were asked for, and start at distances of their
width. -/
theorem buckets?_eq_some_iff {width : Int} {count : Nat} {second : Int}
    {buckets : List Instant} :
    buckets? width count second = some buckets ↔
      buckets.length = count ∧ ∀ (i : Nat) (bucket : Instant), buckets[i]? = some bucket →
        bucket.second = second + i * width ∧ bucket.nano = 0 := by
  induction count generalizing second buckets with
  | zero =>
    rw [buckets?, Option.some.injEq]
    constructor
    · rintro rfl
      exact ⟨rfl, fun i bucket h => nomatch h⟩
    · intro h
      exact (List.eq_nil_of_length_eq_zero h.1).symm
  | succ count ih =>
    rw [buckets?]
    constructor
    · intro h
      split at h
      next bucket rest hb hrest =>
        cases h
        obtain ⟨hlen, hstart⟩ := ih.mp hrest
        refine ⟨by rw [List.length_cons, hlen], fun i b hi => ?_⟩
        cases i with
        | zero =>
          cases hi
          have := Instant.ofSecond?_eq_some_iff.mp hb
          simpa using this
        | succ i =>
          have := hstart i b (by rwa [List.getElem?_cons_succ] at hi)
          refine ⟨?_, this.2⟩
          rw [this.1, Int.natCast_succ, Int.add_mul]
          omega
      next => cases h
    · rintro ⟨hlen, hstart⟩
      cases buckets with
      | nil => cases hlen
      | cons bucket rest =>
        have hfirst : Instant.ofSecond? second = some bucket := by
          refine Instant.ofSecond?_eq_some_iff.mpr ?_
          simpa using hstart 0 bucket rfl
        have hrest : buckets? width count (second + width) = some rest := by
          refine ih.mpr ⟨Nat.succ.inj hlen, fun i b hi => ?_⟩
          have := hstart (i + 1) b (by rwa [List.getElem?_cons_succ])
          refine ⟨?_, this.2⟩
          rw [this.1, Int.natCast_succ, Int.add_mul]
          omega
        simp only [hfirst, hrest]

/-- Buckets of a positive width start one after the other. -/
theorem buckets?_pairwise {width : Int} (hwidth : 0 < width) {count : Nat} {second : Int}
    {buckets : List Instant} (h : buckets? width count second = some buckets) :
    buckets.Pairwise (· < ·) := by
  obtain ⟨-, hstart⟩ := buckets?_eq_some_iff.mp h
  rw [List.pairwise_iff_getElem]
  intro i j hi hj hij
  have hsi := (hstart i _ (List.getElem?_eq_getElem hi)).1
  have hsj := (hstart j _ (List.getElem?_eq_getElem hj)).1
  refine Instant.lt_of_second_lt ?_
  rw [hsi, hsj]
  have : (i : Int) * width < j * width := Int.mul_lt_mul_of_pos_right (by omega) hwidth
  omega

/-- The buckets start at instants if each of them does. -/
theorem exists_buckets? {width : Int} {count : Nat} {second : Int}
    (h : ∀ n < count, ∃ bucket, Instant.ofSecond? (second + n * width) = some bucket) :
    ∃ buckets, buckets? width count second = some buckets := by
  induction count generalizing second with
  | zero => exact ⟨[], rfl⟩
  | succ count ih =>
    obtain ⟨bucket, hbucket⟩ := h 0 (Nat.succ_pos _)
    have hrest : ∀ n < count,
        ∃ bucket, Instant.ofSecond? (second + width + n * width) = some bucket := fun n hn => by
      obtain ⟨b, hb⟩ := h (n + 1) (Nat.succ_lt_succ hn)
      refine ⟨b, ?_⟩
      rw [Int.natCast_succ, Int.add_mul, Int.one_mul, Int.add_comm (n * width) width,
        ← Int.add_assoc] at hb
      exact hb
    obtain ⟨buckets, hbuckets⟩ := ih hrest
    have hfirst : Instant.ofSecond? second = some bucket := by simpa using hbucket
    exact ⟨bucket :: buckets, by rw [buckets?, hfirst, hbuckets]⟩

/-- Buckets are counted as long as they start in the range. -/
theorem lt_bucketCount_iff {start stop width : Int} (hwidth : 0 < width) {n : Nat} :
    n < bucketCount start stop width ↔ start + n * width ≤ stop := by
  have hpos : (0 : Int) ≤ n * width := Int.mul_nonneg (by omega) (by omega)
  unfold bucketCount
  by_cases h : stop < start
  · rw [if_pos h]
    omega
  · rw [if_neg h]
    have hdiv : (n : Int) ≤ (stop - start) / width ↔ n * width ≤ stop - start :=
      Int.le_ediv_iff_mul_le hwidth
    have hnonneg : 0 ≤ (stop - start) / width := Int.ediv_nonneg (by omega) (by omega)
    omega

/-- The starts of the buckets of a range, if instants start there. -/
def grid? (range : TimeRange) (width : Int) : Option (List Instant) :=
  buckets? width
    (bucketCount (bucketStart range.start.second width) range.stop.second width)
    (bucketStart range.start.second width)

/-- The first bucket of a range whose end is too far from it starts at no instant. -/
theorem Exceeds.grid?_eq_none {range : TimeRange} {width : Int} (h : Exceeds range width)
    (hpos : 0 < width) (hle : width ≤ Digits.maxInt64) : grid? range width = none := by
  obtain ⟨hstart, hwide, hstop⟩ := h.starts hle
  rw [grid?]
  cases hcount : bucketCount (bucketStart range.start.second width) range.stop.second width with
  | zero =>
    have hfirst : 0 < bucketCount (bucketStart range.start.second width) range.stop.second width :=
      (lt_bucketCount_iff hpos).mpr (by rw [hstart]; omega)
    rw [hcount] at hfirst
    cases hfirst
  | succ count =>
    have hnone : Instant.ofSecond? (bucketStart range.start.second width) = none := by
      refine Option.eq_none_iff_forall_ne_some.mpr fun bucket hbucket => ?_
      have hsecond := (Instant.ofSecond?_eq_some_iff.mp hbucket).1
      have hfirst := bucket.second_ge
      rw [hstart] at hsecond
      omega
    rw [buckets?, hnone]

/-! ## The cells of the buckets -/

/-- The field of times holds the starts of the buckets. -/
theorem bucketCells_time {timeIndex : Nat} {policy : FillPolicy} {times : List Instant}
    {g : Field} (hg : g.column = Pivot.timeColumn times) (previous : g.column.kind.Cell)
    (buckets : List Instant) :
    bucketCells timeIndex policy times timeIndex g previous buckets =
      buckets.map g.column.kind.instantCell := by
  induction buckets generalizing previous with
  | nil => rfl
  | cons bucket buckets ih =>
    rw [bucketCells, List.map_cons, ih, List.cons.injEq]
    refine ⟨?_, rfl⟩
    unfold bucketCell
    cases hrow : firstRow? times bucket with
    | none => exact if_pos rfl
    | some row =>
      obtain ⟨name, labels, column⟩ := g
      dsimp only at hg ⊢
      subst hg
      exact Column.cellAt_timeColumn (firstRow?_eq_some_iff.mp hrow).1

/-- Another field has a slot for each bucket, and what nothing stands in is filled. -/
theorem bucketCells_of_ne {timeIndex index : Nat} (hindex : index ≠ timeIndex)
    (policy : FillPolicy) (times : List Instant) (g : Field) (previous : g.column.kind.Cell)
    (buckets : List Instant) :
    bucketCells timeIndex policy times index g previous buckets =
      SeriesCells.fillSlots g.column.kind policy previous
        (buckets.map fun bucket => (firstRow? times bucket).map g.column.cellAt) := by
  induction buckets generalizing previous with
  | nil => rfl
  | cons bucket buckets ih =>
    rw [bucketCells, List.map_cons, ih, bucketCell]
    cases firstRow? times bucket with
    | none =>
      rw [Option.map_none, SeriesCells.fillSlots_none]
      simp only [filledCell, if_neg hindex]
    | some row => rw [Option.map_some, SeriesCells.fillSlots_some]

/-- The frame that filling gives: in every field the cells of the buckets. -/
def filled (f : Frame) (timeIndex : Nat) (policy : FillPolicy) (times buckets : List Instant) :
    Frame :=
  { f with fields := columns f.fields fun i g =>
      bucketCells timeIndex policy times i g none buckets }

end Fill

/-! ## Filling a frame -/

namespace Frame

theorem instants_eq_ok_iff {row : Nat} {cells : List Kind.timestamp.Cell} {times : List Instant} :
    instants row cells = .ok times ↔ cells = times.map some := by
  induction cells generalizing row times with
  | nil => cases times <;> simp [instants]
  | cons cell cells ih =>
    cases cell with
    | none => cases times <;> simp [instants]
    | some t =>
      rw [instants]
      cases hrest : instants (row + 1) cells with
      | error e =>
        constructor
        · intro h
          cases h
        · intro h
          cases times with
          | nil => cases h
          | cons u times =>
            rw [List.map_cons, List.cons.injEq] at h
            rw [ih.mpr h.2] at hrest
            cases hrest
      | ok ts =>
        rw [ih.mp hrest]
        cases times with
        | nil => simp
        | cons u times =>
          simp only [Except.ok.injEq, List.map_cons, List.cons.injEq]
          constructor
          · rintro ⟨rfl, rfl⟩
            exact ⟨rfl, rfl⟩
          · rintro ⟨ht, hts⟩
            exact ⟨Option.some.inj ht, (List.map_inj_right fun _ _ => Option.some.inj).mp hts⟩

/-- A frame has times by a field if that is a column of times without nulls. -/
theorem times_eq_ok_iff {f : Frame} {index : Nat} {times : List Instant} :
    f.times index = .ok times ↔
      (f.fields[index]?).map Field.column = some (Pivot.timeColumn times) := by
  unfold Frame.times
  cases hg : (f.fields[index]?).map Field.column with
  | none => simp
  | some column =>
    obtain ⟨kind, cells⟩ := column
    cases kind with
    | timestamp =>
      have heq : (⟨.timestamp, cells⟩ : Column) = Pivot.timeColumn times ↔
          cells.toList = times.map some := by
        rw [Pivot.timeColumn, Column.mk.injEq, heq_eq_eq]
        constructor
        · rintro ⟨-, rfl⟩
          rfl
        · intro h
          exact ⟨rfl, by rw [← h]⟩
      simp only [instants_eq_ok_iff, Option.some.injEq, heq]
    | string => simp [Pivot.timeColumn]
    | integer => simp [Pivot.timeColumn]
    | float => simp [Pivot.timeColumn]
    | boolean => simp [Pivot.timeColumn]

/-- A frame without its rows. -/
theorem emptyCopy_fields (f : Frame) : f.emptyCopy.fields = Fill.columns f.fields fun _ _ => [] := by
  refine List.ext_getElem? fun i => ?_
  rw [emptyCopy, Fill.columns, List.getElem?_map, List.getElem?_mapIdx]
  rfl

/-- Once the times of a frame ascend, filling so many buckets appends their rows. -/
theorem fillBuckets_eq {f : Frame} {timeIndex : Nat} {times : List Instant}
    (htimes : f.times timeIndex = .ok times) (hasc : times.Pairwise (· ≤ ·)) (hne : times ≠ [])
    (policy : FillPolicy) {width start : Int} (hpos : 0 < width) (hle : width ≤ Digits.maxInt64)
    (hdvd : width ∣ start) {count : Nat} (hcount : count ≤ maxBuckets) :
    f.fillBuckets timeIndex policy width start count =
      (Fill.steps f.fields timeIndex policy times width count start
        (Fill.columns f.fields fun _ _ => [])).map fun fields => { f with fields } := by
  rw [fillBuckets, if_neg (Nat.not_lt.mpr hcount), htimes]
  simp only [timesAscend_iff.mpr hasc, Bool.not_true, Bool.false_eq_true, if_false]
  obtain ⟨t, ts, rfl⟩ := List.exists_cons_of_ne_nil hne
  dsimp only
  rw [Fill.walk_eq_steps hasc hpos hle _ hdvd fun bucket _ => Fill.Pending.at_first bucket t ts,
    emptyCopy_fields]
  cases Fill.steps f.fields timeIndex policy (t :: ts) width count start _ <;> rfl

/-- Filling a frame with ascending times succeeds exactly if the width is one of 63
bits and not zero, there are not too many buckets, they start at instants, and all
fields have the rows they are copied from.  Then every field holds the cells of the
buckets. -/
theorem fill_eq_ok_iff {f : Frame} {timeIndex : Nat} {times : List Instant}
    (htimes : f.times timeIndex = .ok times) (hasc : times.Pairwise (· ≤ ·)) (hne : times ≠ [])
    (range : TimeRange) (interval : Span) (policy : FillPolicy) (g : Frame) :
    f.fill timeIndex range interval policy = .ok g ↔
      (0 < (interval.seconds : Int) ∧ (interval.seconds : Int) ≤ Digits.maxInt64) ∧
        Fill.bucketCount (Fill.bucketStart range.start.second interval.seconds)
          range.stop.second interval.seconds ≤ maxBuckets ∧
        ∃ buckets, Fill.grid? range interval.seconds = some buckets ∧
          Fill.HasRows f.fields times buckets ∧
          g = Fill.filled f timeIndex policy times buckets := by
  have htime : ∀ h, f.fields[timeIndex]? = some h → h.column.kind = .timestamp := by
    intro h hh
    have := times_eq_ok_iff.mp htimes
    rw [hh, Option.map_some, Option.some.injEq] at this
    rw [this]
    rfl
  rw [fill_eq]
  by_cases hwidth : interval.Unfillable
  · rw [if_pos hwidth]
    constructor
    · intro h
      cases h
    · rintro ⟨hfillable, -⟩
      rw [Span.Unfillable] at hwidth
      omega
  rw [if_neg hwidth]
  rw [Span.Unfillable] at hwidth
  have hpos : 0 < (interval.seconds : Int) := by omega
  have hle : (interval.seconds : Int) ≤ Digits.maxInt64 := by omega
  by_cases hexceeds : Fill.Exceeds range interval.seconds
  · rw [if_pos hexceeds]
    constructor
    · intro h
      cases h
    · rintro ⟨-, -, buckets, hbuckets, -⟩
      rw [hexceeds.grid?_eq_none hpos hle] at hbuckets
      cases hbuckets
  rw [if_neg hexceeds]
  by_cases hmany : maxBuckets < Fill.bucketCount
      (Fill.bucketStart range.start.second interval.seconds) range.stop.second interval.seconds
  · rw [fillBuckets, if_pos hmany]
    constructor
    · intro h
      cases h
    · rintro ⟨-, hcount, -⟩
      omega
  have hcount := Nat.not_lt.mp hmany
  have hsteps := Fill.steps_columns htime times policy interval.seconds
    (Fill.bucketCount (Fill.bucketStart range.start.second interval.seconds)
      range.stop.second interval.seconds)
    (Fill.bucketStart range.start.second interval.seconds) fun _ _ => []
  simp only [List.getLast?_nil, Option.join_none, List.nil_append] at hsteps
  rw [fillBuckets_eq htimes hasc hne policy hpos hle (Fill.dvd_bucketStart _ _) hcount]
  constructor
  · intro h
    cases hfields : Fill.steps f.fields timeIndex policy times interval.seconds _ _ _ with
    | error e =>
      rw [hfields] at h
      cases h
    | ok fields =>
      rw [hfields] at h
      cases h
      obtain ⟨buckets, hbuckets, hrows, rfl⟩ := (hsteps fields).mp hfields
      exact ⟨⟨hpos, hle⟩, hcount, buckets, hbuckets, hrows, rfl⟩
  · rintro ⟨-, -, buckets, hbuckets, hrows, rfl⟩
    rw [(hsteps _).mpr ⟨buckets, hbuckets, hrows, rfl⟩]
    rfl

end Frame

end SeriesQuery
