import SeriesQuery.Proofs.Frame.Spread

/-!
# The writes of a spread

Spreading a long series is a list of writes: the rows in their order, and in every row the
value fields in theirs, each with one cell for one slot of one series
(`writeRows_eq_putAll`).  Nothing is asked here of the names of the fields.  Two fields of
one name write into the same series, where the later cell takes the place of the earlier
one.

`Holds` says what stands in the map after some writes.  Every write keeps this, unless the
series has the kind of another field (`put_cases`), so the whole list keeps it, or ends
there (`putAll_cases`).
-/

namespace SeriesQuery

/-- A slot of a series has the cell that a row has in a column, and its kind. -/
def SeriesCells.Has (s : SeriesCells) (slot : Nat) (c : Column) (row : Nat) : Prop :=
  (⟨s.kind, s.slots[slot]?⟩ : (k : Kind) × Option (Option k.Cell)) = ⟨c.kind, some c.cells[row]?⟩

/-- A cell enters a series of its kind, where it takes the place of the one in its slot,
and no series of another kind. -/
theorem SeriesCells.write_cases (s : SeriesCells) {slot row : Nat} {c : Column}
    (hrow : row < c.length) (hslot : slot < s.slots.size) :
    (c.kind = s.kind ∧ ∃ s', s.write slot c row = .ok s' ∧ s'.kind = s.kind ∧
        s'.slots.size = s.slots.size ∧ s'.Has slot c row ∧
        ∀ other d r, other ≠ slot → s.Has other d r → s'.Has other d r) ∨
      c.kind ≠ s.kind ∧ s.write slot c row = .error (.kindMismatch s.kind c.kind) := by
  obtain ⟨k, slots⟩ := s
  by_cases hkind : c.kind = k
  · subst hkind
    left
    refine ⟨rfl, ⟨c.kind, slots.set slot (some (c.cellAt row)) hslot⟩, ?_, rfl, by simp, ?_, ?_⟩
    · rw [write, Column.cellAs_self, if_pos hrow]
      exact dif_pos hslot
    · simp [Has, Column.cellAt_eq hrow]
    · intro other d r hne hd
      rw [Has, Array.getElem?_set_ne hslot hne.symm]
      exact hd
  · right
    refine ⟨hkind, ?_⟩
    simp [write, Column.cellAs, hkind]

namespace Pivot

/-! ## Writes -/

/-- What is written when a value field of a row is. -/
structure Write where
  /-- The place of the field in the frame. -/
  index : Nat
  field : Field
  row : Nat
  /-- The labels of the row. -/
  labels : Labels
  /-- The slot of the time of the row. -/
  slot : Nat

namespace Write

/-- The series that is written to. -/
def key (w : Write) : SeriesKey := ⟨w.field.name, w.labels⟩

/-- The order of writes: by their rows, and in a row by the places of the fields. -/
def Before (w w' : Write) : Prop := w.row < w'.row ∨ w.row = w'.row ∧ w.index < w'.index

/-- The field has the row, and a series has the slot. -/
structure InBounds (w : Write) (size : Nat) : Prop where
  row : w.row < w.field.column.length
  slot : w.slot < size

end Write

def put (size : Nat) (m : SeriesMap) (w : Write) : Except ConversionError SeriesMap :=
  match ((m.find? w.key).getD (.blank w.field.kind size)).write w.slot w.field.column w.row with
  | .error e => .error e
  | .ok s => .ok (m.insert w.key s)

def putAll (size : Nat) : List Write → SeriesMap → Except ConversionError SeriesMap
  | [], m => .ok m
  | w :: ws, m =>
    match put size m w with
    | .error e => .error e
    | .ok m => putAll size ws m

theorem putAll_append (size : Nat) (ws ws' : List Write) (m : SeriesMap) :
    putAll size (ws ++ ws') m =
      match putAll size ws m with
      | .error e => .error e
      | .ok m => putAll size ws' m := by
  induction ws generalizing m with
  | nil => rfl
  | cons w ws ih =>
    rw [List.cons_append, putAll, putAll]
    cases put size m w with
    | error e => rfl
    | ok m => exact ih m

/-- The writes of a row. -/
def rowWrites (fields : List Field) (labels : Labels) (slot row : Nat) (indices : List Nat) :
    List Write :=
  indices.filterMap fun i => (fields[i]?).map fun g => ⟨i, g, row, labels, slot⟩

/-- The writes of the rows from a row on, given the slots of their times. -/
def writesFrom (f : Frame) : (row : Nat) → (slots : List Nat) → List Write
  | _, [] => []
  | row, slot :: slots =>
    rowWrites f.fields (f.labelSet row) slot row f.schema.valueIndices ++
      writesFrom f (row + 1) slots

theorem writeRow_eq_putAll {fields : List Field} {indices : List Nat}
    (h : ∀ i ∈ indices, i < fields.length) (size slot row : Nat) (labels : Labels)
    (m : SeriesMap) :
    writeRow fields size slot row labels indices m =
      putAll size (rowWrites fields labels slot row indices) m := by
  induction indices generalizing m with
  | nil => rfl
  | cons i indices ih =>
    obtain ⟨g, hget⟩ : ∃ g, fields[i]? = some g :=
      ⟨_, List.getElem?_eq_getElem (h i List.mem_cons_self)⟩
    have hcons : rowWrites fields labels slot row (i :: indices) =
        ⟨i, g, row, labels, slot⟩ :: rowWrites fields labels slot row indices := by
      simp [rowWrites, hget]
    rw [hcons, writeRow, fieldAt_of_getElem? hget, putAll, put]
    dsimp only [Write.key]
    cases ((m.find? ⟨g.name, labels⟩).getD (.blank g.kind size)).write slot g.column row with
    | error e => rfl
    | ok s => exact ih (fun j hj => h j (List.mem_cons_of_mem _ hj)) _

theorem writeRows_eq_putAll (f : Frame) (size row : Nat) (slots : List Nat) (m : SeriesMap) :
    writeRows f.fields f.schema size row slots m = putAll size (writesFrom f row slots) m := by
  induction slots generalizing row m with
  | nil => rfl
  | cons slot slots ih =>
    have hlabels : labelsAt f.fields row f.schema.labelIndices .empty = .ok (f.labelSet row) :=
      labelsAt_eq (fun i hi => Frame.lt_of_mem_schema (.inr hi)) row .empty
    rw [writeRows, hlabels, writesFrom, putAll_append]
    dsimp only
    rw [writeRow_eq_putAll fun i hi => Frame.lt_of_mem_schema (.inl hi)]
    cases putAll size (rowWrites f.fields (f.labelSet row) slot row f.schema.valueIndices) m with
    | error e => rfl
    | ok m => exact ih (row + 1) m

/-! ## The writes of a frame -/

theorem mem_rowWrites {fields : List Field} {labels : Labels} {slot row : Nat}
    {indices : List Nat} {w : Write} :
    w ∈ rowWrites fields labels slot row indices ↔
      w.index ∈ indices ∧ fields[w.index]? = some w.field ∧ w.row = row ∧ w.labels = labels ∧
        w.slot = slot := by
  simp only [rowWrites, List.mem_filterMap, Option.map_eq_some_iff]
  constructor
  · rintro ⟨i, hi, g, hg, rfl⟩
    exact ⟨hi, hg, rfl, rfl, rfl⟩
  · rintro ⟨hi, hg, rfl, rfl, rfl⟩
    exact ⟨w.index, hi, w.field, hg, rfl⟩

theorem mem_writesFrom {f : Frame} {row : Nat} {slots : List Nat} {w : Write} :
    w ∈ writesFrom f row slots ↔
      w.index ∈ f.schema.valueIndices ∧ f.fields[w.index]? = some w.field ∧
        w.labels = f.labelSet w.row ∧ row ≤ w.row ∧ slots[w.row - row]? = some w.slot := by
  induction slots generalizing row with
  | nil => simp [writesFrom]
  | cons slot slots ih =>
    rw [writesFrom, List.mem_append, mem_rowWrites, ih]
    constructor
    · rintro (⟨hi, hg, rfl, hlabels, rfl⟩ | ⟨hi, hg, hlabels, hle, hslot⟩)
      · exact ⟨hi, hg, hlabels, Nat.le_refl _, by simp⟩
      · refine ⟨hi, hg, hlabels, Nat.le_of_succ_le hle, ?_⟩
        have hsub : w.row - row = w.row - (row + 1) + 1 := by omega
        rw [hsub, List.getElem?_cons_succ]
        exact hslot
    · rintro ⟨hi, hg, hlabels, hle, hslot⟩
      rcases Nat.lt_or_eq_of_le hle with hlt | rfl
      · right
        have hsub : w.row - row = w.row - (row + 1) + 1 := by omega
        rw [hsub, List.getElem?_cons_succ] at hslot
        exact ⟨hi, hg, hlabels, hlt, hslot⟩
      · left
        rw [Nat.sub_self, List.getElem?_cons_zero, Option.some.injEq] at hslot
        exact ⟨hi, hg, rfl, hlabels, hslot.symm⟩

theorem pairwise_rowWrites {fields : List Field} {labels : Labels} {slot row : Nat}
    {indices : List Nat} (h : indices.Pairwise (· < ·)) :
    (rowWrites fields labels slot row indices).Pairwise Write.Before := by
  rw [rowWrites, List.pairwise_filterMap]
  refine h.imp ?_
  intro i j hij w hw w' hw'
  obtain ⟨g, -, rfl⟩ := Option.map_eq_some_iff.mp hw
  obtain ⟨g', -, rfl⟩ := Option.map_eq_some_iff.mp hw'
  exact .inr ⟨rfl, hij⟩

theorem pairwise_writesFrom {f : Frame} (h : f.schema.valueIndices.Pairwise (· < ·)) (row : Nat)
    (slots : List Nat) : (writesFrom f row slots).Pairwise Write.Before := by
  induction slots generalizing row with
  | nil => exact List.Pairwise.nil
  | cons slot slots ih =>
    refine List.pairwise_append.mpr ⟨pairwise_rowWrites h, ih (row + 1), ?_⟩
    intro w hw w' hw'
    have hrow : w.row = row := (mem_rowWrites.mp hw).2.2.1
    have hrow' : row + 1 ≤ w'.row := (mem_writesFrom.mp hw').2.2.2.1
    exact .inl (by omega)

/-! ## What the writes leave -/

/-- What stands in the map after some writes. -/
structure Holds (size : Nat) (done : List Write) (m : SeriesMap) : Prop where
  sorted : m.Sorted
  /-- What is written to has a series of its kind. -/
  seen : ∀ w ∈ done, ∃ s, m.find? w.key = some s ∧ s.kind = w.field.kind
  /-- There are no other series, and each has a slot for every time. -/
  only : ∀ key s, m.find? key = some s → s.slots.size = size ∧ ∃ w ∈ done, w.key = key
  /-- A cell stays until another one is written to its place. -/
  last : ∀ w ∈ done, (∀ w' ∈ done, w.Before w' → w'.key = w.key → w'.slot ≠ w.slot) →
    ∃ s, m.find? w.key = some s ∧ s.Has w.slot w.field.column w.row

variable {size : Nat} {done : List Write} {m : SeriesMap} {w : Write}

theorem holds_empty (size : Nat) : Holds size [] .empty :=
  ⟨List.Pairwise.nil, fun _ h => (nomatch h), fun _ _ h => (nomatch h), fun _ h => (nomatch h)⟩

/-- Everything that is written to a series has its kind. -/
theorem Holds.kind_eq (hm : Holds size done m) {w w' : Write} (hw : w ∈ done) (hw' : w' ∈ done)
    (hkey : w'.key = w.key) : w'.field.kind = w.field.kind := by
  obtain ⟨s, hs, hkind⟩ := hm.seen w hw
  obtain ⟨s', hs', hkind'⟩ := hm.seen w' hw'
  rw [hkey, hs, Option.some.injEq] at hs'
  rw [← hkind, ← hkind', hs']

theorem Holds.insert (hm : Holds size done m) (hbefore : ∀ w' ∈ done, w'.Before w)
    {s' : SeriesCells} (hsize : s'.slots.size = size) (hkind : s'.kind = w.field.kind)
    (hhas : s'.Has w.slot w.field.column w.row)
    (hkeep : ∀ s, m.find? w.key = some s → s.kind = s'.kind ∧
      ∀ other d r, other ≠ w.slot → s.Has other d r → s'.Has other d r) :
    Holds size (done ++ [w]) (m.insert w.key s') := by
  have hfind : ∀ w' : Write, w'.key ≠ w.key →
      (m.insert w.key s').find? w'.key = m.find? w'.key :=
    fun w' hne => SortedMap.find?_insert_of_ne m hne.symm s'
  refine ⟨sorted_insert_series hm.sorted _ _, ?_, ?_, ?_⟩
  · intro w' hw'
    by_cases hkey : w'.key = w.key
    · refine ⟨s', by rw [hkey, SortedMap.find?_insert], ?_⟩
      rcases List.mem_append.mp hw' with hw' | hw'
      · obtain ⟨s, hs, hkind'⟩ := hm.seen w' hw'
        rw [← (hkeep s (hkey ▸ hs)).1, hkind']
      · rw [List.mem_singleton.mp hw', hkind]
    · rcases List.mem_append.mp hw' with hw' | hw'
      · rw [hfind w' hkey]
        exact hm.seen w' hw'
      · exact absurd (congrArg Write.key (List.mem_singleton.mp hw')) hkey
  · intro key s hs
    by_cases hkey : w.key = key
    · subst hkey
      rw [SortedMap.find?_insert, Option.some.injEq] at hs
      exact ⟨hs ▸ hsize, w, by simp, rfl⟩
    · rw [SortedMap.find?_insert_of_ne m hkey] at hs
      obtain ⟨hsize', w', hw', rfl⟩ := hm.only key s hs
      exact ⟨hsize', w', List.mem_append_left _ hw', rfl⟩
  · intro w' hw' hlast
    rcases List.mem_append.mp hw' with hmem | hmem
    · obtain ⟨s, hs, hhas'⟩ := hm.last w' hmem fun w'' hw'' =>
        hlast w'' (List.mem_append_left _ hw'')
      by_cases hkey : w'.key = w.key
      · -- The new cell is written later, so it is written to another slot.
        have hslot : w.slot ≠ w'.slot := hlast w (by simp) (hbefore w' hmem) hkey.symm
        rw [hkey] at hs ⊢
        exact ⟨s', SortedMap.find?_insert _ _ _, (hkeep s hs).2 _ _ _ hslot.symm hhas'⟩
      · rw [hfind w' hkey]
        exact ⟨s, hs, hhas'⟩
    · obtain rfl := List.mem_singleton.mp hmem
      exact ⟨s', SortedMap.find?_insert _ _ _, hhas⟩

/-- A cell is written, unless something of another kind was written to its series. -/
theorem put_cases (hm : Holds size done m) (hw : w.InBounds size)
    (hbefore : ∀ w' ∈ done, w'.Before w) :
    (∃ m', put size m w = .ok m' ∧ Holds size (done ++ [w]) m') ∨
      ∃ w' ∈ done, w'.key = w.key ∧ w'.field.kind ≠ w.field.kind ∧
        put size m w = .error (.kindMismatch w'.field.kind w.field.kind) := by
  unfold put
  cases hfind : m.find? w.key with
  | none =>
    rw [Option.getD_none]
    have hslot : w.slot < (SeriesCells.blank w.field.kind size).slots.size := by
      simpa [SeriesCells.blank] using hw.slot
    rcases SeriesCells.write_cases (.blank w.field.kind size) hw.row hslot with
      ⟨-, s', hwrite, hkind, hsize, hhas, -⟩ | ⟨hne, -⟩
    · left
      refine ⟨m.insert w.key s', by rw [hwrite], ?_⟩
      refine hm.insert hbefore ?_ hkind hhas fun s hs => ?_
      · rw [hsize]
        simp [SeriesCells.blank]
      · rw [hfind] at hs
        cases hs
    · exact absurd rfl hne
  | some s =>
    rw [Option.getD_some]
    obtain ⟨hsize, w', hw', hkey⟩ := hm.only _ s hfind
    rcases s.write_cases hw.row (hsize ▸ hw.slot) with
      ⟨hsame, s', hwrite, hkind, hsize', hhas, hkeep⟩ | ⟨hne, hwrite⟩
    · left
      refine ⟨m.insert w.key s', by rw [hwrite], ?_⟩
      refine hm.insert hbefore (hsize'.trans hsize) (hkind.trans hsame.symm) hhas ?_
      intro s₀ hs₀
      rw [hfind, Option.some.injEq] at hs₀
      subst hs₀
      exact ⟨hkind.symm, hkeep⟩
    · right
      obtain ⟨s', hs', hkind⟩ := hm.seen w' hw'
      rw [hkey, hfind, Option.some.injEq] at hs'
      subst hs'
      refine ⟨w', hw', hkey, ?_, ?_⟩
      · rw [← hkind]
        exact hne.symm
      · rw [hwrite, hkind]
        rfl

/-- All cells are written, unless two of different kinds are to enter one series. -/
theorem putAll_cases {ws : List Write} (hm : Holds size done m)
    (hbounds : ∀ w ∈ ws, w.InBounds size) (horder : (done ++ ws).Pairwise Write.Before) :
    (∃ m', putAll size ws m = .ok m' ∧ Holds size (done ++ ws) m') ∨
      ∃ w ∈ done ++ ws, ∃ w' ∈ done ++ ws, w'.key = w.key ∧ w'.field.kind ≠ w.field.kind ∧
        putAll size ws m = .error (.kindMismatch w'.field.kind w.field.kind) := by
  induction ws generalizing done m with
  | nil =>
    rw [List.append_nil]
    exact .inl ⟨m, rfl, hm⟩
  | cons w ws ih =>
    -- What is done comes before what is left, which is why the order is of both lists.
    have hbefore : ∀ w' ∈ done, w'.Before w := fun w' hw' =>
      (List.pairwise_append.mp horder).2.2 w' hw' w List.mem_cons_self
    rw [List.append_cons] at horder ⊢
    rw [putAll]
    rcases put_cases hm (hbounds w List.mem_cons_self) hbefore with
      ⟨m', hput, hm'⟩ | ⟨w', hw', hkey, hkind, hput⟩
    · rw [hput]
      exact ih hm' (fun w' hw' => hbounds w' (List.mem_cons_of_mem _ hw')) horder
    · right
      refine ⟨w, by simp, w', by simp [hw'], hkey, hkind, by rw [hput]⟩

end Pivot

/-! ## Spreading a frame -/

namespace Frame

/-- A long frame whose rows are in the order of the given times.  Fields may have the same
name. -/
structure Ordered (f : Frame) (times : List Instant) : Prop where
  shape : f.schema.shape = .long
  time : (f.fields[f.schema.timeIndex]?).map Field.column = some (Pivot.timeColumn times)
  aligned : ∀ g ∈ f.fields, g.column.length = times.length
  ascend : times.Pairwise (· ≤ ·)

/-- The writes that spread a frame. -/
def writes (f : Frame) (times : List Instant) : List Pivot.Write :=
  Pivot.writesFrom f 0 (Pivot.slotsFrom 0 times)

open Pivot

variable {f : Frame} {times : List Instant}

theorem mem_writes {w : Write} :
    w ∈ f.writes times ↔ w.index ∈ f.schema.valueIndices ∧ f.fields[w.index]? = some w.field ∧
      w.labels = f.labelSet w.row ∧ (slotsFrom 0 times)[w.row]? = some w.slot := by
  simp [writes, mem_writesFrom]

/-- Every value field of every row is written. -/
theorem exists_write {i row : Nat} (hi : i ∈ f.schema.valueIndices) (hrow : row < times.length) :
    ∃ w ∈ f.writes times, w.index = i ∧ w.row = row := by
  have hslot : row < (slotsFrom 0 times).length := by simpa using hrow
  exact ⟨⟨i, _, row, f.labelSet row, _⟩, mem_writes.mpr ⟨hi,
    List.getElem?_eq_getElem (lt_of_mem_schema (.inl hi)), rfl, List.getElem?_eq_getElem hslot⟩,
    rfl, rfl⟩

/-- A write goes to the slot that the time of its row has among the distinct times. -/
theorem distinct_slot {w : Write} (hw : w ∈ f.writes times) :
    w.row < times.length ∧ (distinct times)[w.slot]? = times[w.row]? := by
  obtain ⟨-, -, -, hslot⟩ := mem_writes.mp hw
  have hrow : w.row < times.length := by
    simpa using (List.getElem?_eq_some_iff.mp hslot).1
  have htime := List.getElem?_eq_getElem hrow
  obtain ⟨place, hplace, hdistinct⟩ := getElem?_slotsFrom 0 htime
  rw [hslot, Nat.zero_add, Option.some.injEq] at hplace
  subst hplace
  exact ⟨hrow, hdistinct.trans htime.symm⟩

theorem inBounds_of_mem_writes (h : f.Ordered times) {w : Write} (hw : w ∈ f.writes times) :
    w.InBounds (distinct times).length := by
  obtain ⟨hrow, hslot⟩ := distinct_slot hw
  refine ⟨?_, ?_⟩
  · rwa [h.aligned w.field (List.mem_of_getElem? (mem_writes.mp hw).2.1)]
  · rw [List.getElem?_eq_getElem hrow] at hslot
    exact (List.getElem?_eq_some_iff.mp hslot).1

theorem pairwise_writes (f : Frame) (times : List Instant) :
    (f.writes times).Pairwise Write.Before :=
  pairwise_writesFrom f.pairwise_valueIndices 0 (slotsFrom 0 times)

/-- The times of an ordered frame can be read and are in order, so only the writes are left that
can fail. -/
theorem pivot_eq_putAll (h : f.Ordered times) {time : Field}
    (htime : f.fields[f.schema.timeIndex]? = some time) (policy : FillPolicy) :
    f.pivot f.schema policy =
      match putAll (distinct times).length (f.writes times) .empty with
      | .error e => .error e
      | .ok m =>
        .ok { f with
          fields := .ofColumn time.name (timeColumn (distinct times)) ::
            m.entries.map (seriesField policy) } := by
  rw [writes, ← writeRows_eq_putAll]
  unfold pivot
  rw [if_neg (fun hne => hne h.shape), times_eq_ok_iff.mpr h.time]
  dsimp only
  rw [if_neg (by simp [timesAscend_iff.mpr h.ascend])]
  cases writeRows f.fields f.schema (distinct times).length 0 (slotsFrom 0 times) .empty with
  | error e => rfl
  | ok m =>
    dsimp only
    rw [fieldAt_of_getElem? htime]

/-- Spreading gives the field of the distinct times and a field for each series, unless two
value fields of different kinds are to enter one series. -/
theorem pivot_cases (h : f.Ordered times) (policy : FillPolicy) :
    (∃ (wide : Frame) (name : String) (m : SeriesMap),
      f.pivot f.schema policy = .ok wide ∧ Holds (distinct times).length (f.writes times) m ∧
        wide.fields = .ofColumn name (timeColumn (distinct times)) ::
          m.entries.map (seriesField policy)) ∨
      ∃ w ∈ f.writes times, ∃ w' ∈ f.writes times, w'.key = w.key ∧
        w'.field.kind ≠ w.field.kind ∧
        f.pivot f.schema policy = .error (.kindMismatch w'.field.kind w.field.kind) := by
  obtain ⟨time, htime, -⟩ := Option.map_eq_some_iff.mp h.time
  have hpivot := pivot_eq_putAll h htime policy
  rcases putAll_cases (holds_empty (distinct times).length)
      (fun w hw => inBounds_of_mem_writes h hw) (pairwise_writes f times) with
    ⟨m, hput, hm⟩ | ⟨w, hw, w', hw', hkey, hkind, hput⟩
  · left
    exact ⟨_, time.name, m, by rw [hpivot, hput], hm, rfl⟩
  · right
    exact ⟨w, hw, w', hw', hkey, hkind, by rw [hpivot, hput]⟩

end Frame

end SeriesQuery
