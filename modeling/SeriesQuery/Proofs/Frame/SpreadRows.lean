import SeriesQuery.Proofs.Frame.GapFilled

/-!
# The rows of a spread series, one by one

What spreading a long series gives, cell by cell (`Frame.pivot_spreads`).  There is a row for
each of the times that occur, and a field for each pair of a value field's name and a label set
that occur together, in the order of the names and then of the label sets (`SeriesKey.lt_iff`).
A cell is that of the last row of its time and label set.  Where there is no such row the policy
fills it, and may look at the cell above.

The order of the map that the rows are written to is told by the spines of its keys, in which
names and texts alternate.  As every entry takes two places in a spine, comparing spines is
comparing the label sets entry by entry (`flatMap_lt_iff`).
-/

namespace SeriesQuery

/-! ## The order of the series -/

namespace Labels

/-- An entry is before another if its name is, or its text where the names are the same. -/
def EntryBefore (e e' : String × String) : Prop := e.1 < e'.1 ∨ e.1 = e'.1 ∧ e.2 < e'.2

/-- A label set is before another if its entry is where they first differ, or if it ends there. -/
def Before (l m : Labels) : Prop := List.Lex EntryBefore l.entries m.entries

theorem flatMap_lt_iff {es fs : List (String × String)} :
    ((es.flatMap fun e => [e.1, e.2]) < fs.flatMap fun e => [e.1, e.2]) ↔
      List.Lex EntryBefore es fs := by
  induction es generalizing fs with
  | nil =>
    cases fs with
    | nil => exact ⟨nofun, nofun⟩
    | cons f fs => exact ⟨fun _ => .nil, fun _ => .nil⟩
  | cons e es ih =>
    cases fs with
    | nil => exact ⟨nofun, nofun⟩
    | cons f fs =>
      simp only [List.flatMap_cons, List.cons_append, List.nil_append, List.cons_lt_cons_iff, ih]
      constructor
      · rintro (hname | ⟨hname, htext | ⟨htext, hrest⟩⟩)
        · exact .rel (.inl hname)
        · exact .rel (.inr ⟨hname, htext⟩)
        · rw [show e = f from Prod.ext hname htext]
          exact .cons hrest
      · intro h
        cases h with
        | rel h =>
          rcases h with hname | ⟨hname, htext⟩
          · exact .inl hname
          · exact .inr ⟨hname, .inl htext⟩
        | cons hrest => exact .inr ⟨rfl, .inr ⟨rfl, hrest⟩⟩

end Labels

/-- Keys are in the order of their names, and of their label sets where the names are the
same. -/
theorem SeriesKey.lt_iff {k l : SeriesKey} :
    k < l ↔ k.name < l.name ∨ k.name = l.name ∧ Labels.Before k.labels l.labels := by
  show k.spine < l.spine ↔ _
  rw [spine, spine, List.cons_lt_cons_iff, Labels.flatMap_lt_iff]
  rfl

/-! ## The cells of a series -/

namespace Fill

open Pivot

variable {f : Frame} {times : List Instant} {policy : FillPolicy} {labels : Labels} {c : Column}
  {place : Nat} {time : Instant}

theorem length_spreadCells :
    (spreadCells f times policy labels c).length = (distinct times).length := by
  rw [spreadCells, SeriesCells.length_fillSlots, slotsAfter, List.length_map]

/-- The cell of a time is that of the last row of the series at this time. -/
theorem getElem?_spreadCells_of_last (hplace : (distinct times)[place]? = some time)
    (haligned : c.length = times.length) {row : Nat} (hrow : times[row]? = some time)
    (hlabels : f.labelSet row = labels)
    (hlast : ∀ later, row < later → times[later]? = some time → f.labelSet later ≠ labels) :
    (spreadCells f times policy labels c)[place]? = c.cells[row]? := by
  have hlt : row < times.length := (List.getElem?_eq_some_iff.mp hrow).1
  have hcell : f.lastCell times labels c (· = time) times.length = some (c.cellAt row) := by
    refine Frame.lastCell_eq_some_iff.mpr
      ⟨row, hlt, hlabels, ⟨time, hrow, decide_eq_true rfl⟩, rfl, fun later hl _ hof t ht => ?_⟩
    exact decide_eq_false fun he => hlast later hl (he ▸ ht) hof
  rw [Column.cellAt_eq (haligned ▸ hlt)]
  exact SeriesCells.getElem?_fillSlots_of_some (getElem?_slotsAfter.mpr ⟨time, hplace, hcell⟩)

/-- At a time at which the series has no row stands what the policy puts there. -/
theorem filledAt_spreadCells (hplace : (distinct times)[place]? = some time)
    (hnone : ∀ row, times[row]? = some time → f.labelSet row ≠ labels) :
    SeriesCells.FilledAt policy (spreadCells f times policy labels c) place := by
  refine SeriesCells.filledAt_fillSlots policy
    (getElem?_slotsAfter.mpr ⟨time, hplace, Frame.lastCell_eq_none_iff.mpr ?_⟩)
  intro row _ hlabels t ht
  exact decide_eq_false fun he => hnone row (he ▸ ht) hlabels

/-- What the cells of a series are at the times that occur in a long frame.  `c` is the value
column of the series, and `times` are the times of the rows. -/
structure Spread (f : Frame) (times ticks : List Instant) (policy : FillPolicy) (labels : Labels)
    (c : Column) (cells : List c.kind.Cell) : Prop where
  /-- There is a cell for each time that occurs. -/
  length_eq : cells.length = ticks.length
  /-- The cell of a time is that of the last row that has the time and the labels. -/
  last : ∀ (place row : Nat) (time : Instant), ticks[place]? = some time →
    times[row]? = some time → f.labelSet row = labels →
      (∀ later, row < later → times[later]? = some time → f.labelSet later ≠ labels) →
        cells[place]? = c.cells[row]?
  /-- If there is no such row, it is what the policy puts there. -/
  filled : ∀ (place : Nat) (time : Instant), ticks[place]? = some time →
    (∀ row, times[row]? = some time → f.labelSet row ≠ labels) →
      SeriesCells.FilledAt policy cells place

end Fill

open Fill Pivot

/-- Spreading a long series.  It does not fail, and gives a field of the times that occur, each
once and in order, and a field for every value field and label set that occur together in a row,
in the order of names and label sets.  Every cell is that of the last row of its series at its
time, or filled by the policy.  Nothing else in the frame changes. -/
theorem Frame.pivot_spreads (f : Frame) (times : List Instant) (policy : FillPolicy)
    (hlong : f.IsLong times) :
    ∃ (g : Frame) (time : Field) (series : List Field) (ticks : List Instant),
      f.pivot f.schema policy = .ok g ∧ g.name = f.name ∧ g.note = f.note ∧
      g.fields = time :: series ∧
      (f.fields[f.schema.timeIndex]?).map Field.name = some time.name ∧
      time.labels = .empty ∧ time.column = timeColumn ticks ∧
      ticks.Pairwise (· < ·) ∧ (∀ t, t ∈ ticks ↔ t ∈ times) ∧
      (series.Pairwise fun s s' =>
        s.name < s'.name ∨ s.name = s'.name ∧ Labels.Before s.labels s'.labels) ∧
      (∀ key, key ∈ series.map Field.key ↔
        ∃ v ∈ f.valueFields, ∃ row < times.length, key = ⟨v.name, f.labelSet row⟩) ∧
      ∀ s ∈ series, ∃ v ∈ f.valueFields, s.name = v.name ∧
        ∃ cells : List v.column.kind.Cell, s.column = ⟨v.column.kind, cells.toArray⟩ ∧
          Spread f times ticks policy s.labels v.column cells := by
  obtain ⟨source, hsource, -⟩ := Option.map_eq_some_iff.mp hlong.time
  obtain ⟨m, hm, hpivot⟩ := pivot_eq_written hlong hsource policy
  have hkeys : (m.entries.map (seriesField policy)).map Field.key = m.keys := by
    rw [List.map_map]
    rfl
  refine ⟨_, _, _, distinct times, hpivot, rfl, rfl, rfl, by rw [hsource]; rfl, rfl, rfl,
    distinct_pairwise hlong.ascend, fun t => mem_distinct, ?_, fun key => ?_,
    fun s hs => ?_⟩
  · have hsorted : (m.entries.map (·.1)).Pairwise (· < ·) := hm.sorted
    rw [List.pairwise_map] at hsorted ⊢
    exact hsorted.imp fun {_ _} h => SeriesKey.lt_iff.mp h
  · rw [hkeys, hm.mem_keys_iff]
  · obtain ⟨entry, hentry, rfl⟩ := List.mem_map.mp hs
    obtain ⟨v, hv, heq⟩ := hm.mem_entries hentry
    have haligned := hlong.aligned v (mem_fields_of_mem_valueFields hv)
    refine ⟨v, hv, by rw [heq]; rfl,
      spreadCells f times policy entry.1.labels v.column, ?_, length_spreadCells, ?_, ?_⟩
    · rw [heq]
      rfl
    · intro place row t hplace hrow hlabels hlast
      exact getElem?_spreadCells_of_last hplace haligned hrow hlabels hlast
    · intro place t hplace hnone
      exact filledAt_spreadCells hplace hnone

/-- The start of 1970 and a moment in the minute after it, each twice. -/
def roomTimes : List Instant := [.near 0 0, .near 0 0, .near 60 5, .near 60 5]

/-- Two values of rooms, of which one has no name and comes late. -/
def rooms : Frame :=
  ⟨"rooms", [.ofColumn "volts" ⟨.integer, #[some 1, some 2, some 3, none]⟩,
    .ofColumn "room" ⟨.string, #[some "hall", some "hall", none, some "attic"]⟩,
    .ofColumn "time" (timeColumn roomTimes),
    .ofColumn "amps" ⟨.integer, #[some 5, none, some 7, some 8]⟩], none⟩

/-- The values of the rooms are a long series.  Every room lacks a row at one of the two times, and
has the constant there. -/
theorem pivot_spreads_rooms : ∃ (g : Frame) (time : Field) (series : List Field)
    (ticks : List Instant),
      rooms.pivot rooms.schema (.constant .withFraction) = .ok g ∧ g.fields = time :: series ∧
      time.column = timeColumn ticks ∧ ticks.Pairwise (· < ·) ∧
      (series.Pairwise fun s s' =>
        s.name < s'.name ∨ s.name = s'.name ∧ Labels.Before s.labels s'.labels) ∧
      ∀ s ∈ series, ∃ v ∈ rooms.valueFields, s.name = v.name ∧
        ∃ cells : List v.column.kind.Cell, s.column = ⟨v.column.kind, cells.toArray⟩ ∧
          Spread rooms roomTimes ticks (.constant .withFraction) s.labels v.column cells := by
  obtain ⟨g, time, series, ticks, hg, -, -, hfields, -, -, htime, hasc, -, horder, -, hseries⟩ :=
    Frame.pivot_spreads rooms roomTimes (.constant .withFraction)
      ⟨rfl, rfl, by decide, by decide, by decide⟩
  exact ⟨g, time, series, ticks, hg, hfields, htime, hasc, horder, hseries⟩

example : (rooms.pivot rooms.schema .previous).toOption.map (fun g =>
      g.fields.tail.map fun s => (s.name, s.labels.entries, s.column)) =
    some [("amps", [("room", "")], ⟨.integer, #[none, some 7]⟩),
      ("amps", [("room", "attic")], ⟨.integer, #[none, some 8]⟩),
      ("amps", [("room", "hall")], ⟨.integer, #[none, none]⟩),
      ("volts", [("room", "")], ⟨.integer, #[none, some 3]⟩),
      ("volts", [("room", "attic")], ⟨.integer, #[none, none]⟩),
      ("volts", [("room", "hall")], ⟨.integer, #[some 2, some 2]⟩)] := by decide +kernel

end SeriesQuery
