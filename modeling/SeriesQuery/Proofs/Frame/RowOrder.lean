import SeriesQuery.Proofs.Frame.LastWrites

/-!
# Rows of equal times in another order

The rows of a long series can be taken in another order in which every row keeps its time
(`Reorders`).  Then every write is made in another place, to the same slot of the same series
(`Mirrors`).  If no two rows have both the same time and the same label set, only the writes of
one row meet in a slot, so the last write to a slot stays the last (`covers_writes`), and what
the writes leave is the same.

Whether the writes can be made is another matter, since two value fields of one name may have
different kinds.  But then the first row does not get through already, whichever row that is:
the writes of two rows go on side by side as far as the fields have the same names and kinds
(`putAll_map`).
-/

namespace SeriesQuery

/-! ## Picking rows -/

/-- The cells of some rows, in the order of these. -/
def Column.pick (rows : List Nat) (c : Column) : Column := ⟨c.kind, (rows.map c.cellAt).toArray⟩

def Field.pick (rows : List Nat) (g : Field) : Field := { g with column := g.column.pick rows }

def Frame.pick (rows : List Nat) (f : Frame) : Frame :=
  { f with fields := f.fields.map (Field.pick rows) }

/-- All rows in an order in which each has a time that is the one of its place. -/
structure Reorders (rows : List Nat) (times : List Instant) : Prop where
  perm : rows.Perm (List.range times.length)
  times : ∀ place row : Nat, rows[place]? = some row → times[row]? = times[place]?

namespace Column

variable {c : Column} {rows : List Nat} {place row : Nat}

theorem getElem?_pick (h : rows[place]? = some row) :
    (c.pick rows).cells[place]? = some (c.cellAt row) := by
  show ((rows.map c.cellAt).toArray)[place]? = some (c.cellAt row)
  rw [List.getElem?_toArray, List.getElem?_map, h, Option.map_some]

theorem typedCell_pick (h : rows[place]? = some row) (hrow : row < c.length) :
    (c.pick rows).typedCell place = c.typedCell row := by
  rw [typedCell, getElem?_pick h, typedCell, cellAt_eq hrow]
  rfl

theorem labelText_eq (c : Column) (row : Nat) :
    c.labelText row = (c.cellAt row).elim "" c.kind.text := by
  rw [labelText, cellAt]
  cases c.cells[row]?.join <;> rfl

theorem labelText_pick (h : rows[place]? = some row) :
    (c.pick rows).labelText place = c.labelText row := by
  rw [labelText_eq, labelText_eq, cellAt, getElem?_pick h]
  rfl

theorem length_pick (rows : List Nat) (c : Column) : (c.pick rows).length = rows.length := by
  simp [pick, length]

end Column

namespace Reorders

variable {rows : List Nat} {times : List Instant}

theorem length_eq (h : Reorders rows times) : rows.length = times.length := by
  rw [h.perm.length_eq, List.length_range]

theorem nodup (h : Reorders rows times) : rows.Nodup := h.perm.nodup_iff.mpr List.nodup_range

theorem lt (h : Reorders rows times) {place row : Nat} (hrow : rows[place]? = some row) :
    row < times.length :=
  List.mem_range.mp (h.perm.mem_iff.mp (List.mem_of_getElem? hrow))

theorem exists_place (h : Reorders rows times) {row : Nat} (hrow : row < times.length) :
    ∃ place : Nat, rows[place]? = some row :=
  List.getElem?_of_mem (h.perm.mem_iff.mpr (List.mem_range.mpr hrow))

/-- A row has one place. -/
theorem place_eq (h : Reorders rows times) {place place' row : Nat}
    (hrow : rows[place]? = some row) (hrow' : rows[place']? = some row) : place = place' := by
  have hlt := (List.getElem?_eq_some_iff.mp hrow).1
  exact (List.getElem?_inj hlt h.nodup).mp (hrow.trans hrow'.symm)

/-- The times stay where they are. -/
theorem pick_timeColumn (h : Reorders rows times) :
    (Pivot.timeColumn times).pick rows = Pivot.timeColumn times := by
  have hcells : (rows.map fun row => (times.map some).toArray[row]?.join) = times.map some := by
    refine List.ext_getElem? fun place => ?_
    rw [List.getElem?_map, List.getElem?_map]
    cases hrow : rows[place]? with
    | none =>
      have hle := List.getElem?_eq_none_iff.mp hrow
      rw [List.getElem?_eq_none (h.length_eq ▸ hle)]
      rfl
    | some row =>
      have htime := List.getElem?_eq_getElem (h.lt hrow)
      rw [← h.times place row hrow, htime, Option.map_some, Option.map_some, List.getElem?_toArray,
        List.getElem?_map, htime]
      rfl
  exact congrArg (fun cells : List (Option Instant) => Column.mk .timestamp cells.toArray) hcells

end Reorders

namespace Frame

variable {f : Frame} {rows : List Nat} {times : List Instant} {place row : Nat}

theorem schema_pick (rows : List Nat) (f : Frame) : (f.pick rows).schema = f.schema := by
  rw [schema, pick, List.map_map]
  rfl

theorem getElem?_pick (rows : List Nat) (f : Frame) (i : Nat) :
    (f.pick rows).fields[i]? = (f.fields[i]?).map (Field.pick rows) := List.getElem?_map

theorem labelSet_pick (h : rows[place]? = some row) :
    (f.pick rows).labelSet place = f.labelSet row := by
  have hfields : (f.pick rows).labelFields = f.labelFields.map (Field.pick rows) := by
    rw [labelFields, labelFields, schema_pick, List.map_filterMap]
    exact List.filterMap_congr fun i _ => getElem?_pick rows f i
  rw [labelSet, labelSet, hfields, List.map_map]
  congr 1
  refine List.map_congr_left fun g _ => ?_
  exact congrArg (Prod.mk g.name) (Column.labelText_pick h)

theorem Ordered.pick (h : f.Ordered times) (hrows : Reorders rows times) :
    (f.pick rows).Ordered times := by
  refine ⟨by rw [schema_pick]; exact h.shape, ?_, ?_, h.ascend⟩
  · obtain ⟨time, htime, hcolumn⟩ := Option.map_eq_some_iff.mp h.time
    rw [schema_pick, getElem?_pick, htime, Option.map_some, Option.map_some, Field.pick, hcolumn,
      hrows.pick_timeColumn]
  · intro g hg
    obtain ⟨g', -, rfl⟩ := List.mem_map.mp hg
    rw [← hrows.length_eq]
    exact Column.length_pick rows g'.column

/-- No two rows have both the same time and the same label set. -/
def RowsDiffer (f : Frame) (times : List Instant) : Prop :=
  ∀ row row', row < times.length → row' < times.length → times[row]? = times[row']? →
    f.labelSet row = f.labelSet row' → row = row'

end Frame

namespace Pivot

open SeriesQuery.Frame

variable {f : Frame} {rows : List Nat} {times : List Instant}

/-! ## Writes in another order -/

/-- Rows of one time have one slot. -/
theorem slotsFrom_congr (hasc : times.Pairwise (· ≤ ·)) {row row' : Nat}
    (h : times[row]? = times[row']?) : (slotsFrom 0 times)[row]? = (slotsFrom 0 times)[row']? := by
  cases htime : times[row]? with
  | none =>
    have hle := List.getElem?_eq_none_iff.mp htime
    have hle' := List.getElem?_eq_none_iff.mp (h.symm.trans htime)
    rw [List.getElem?_eq_none (by simpa using hle), List.getElem?_eq_none (by simpa using hle')]
  | some time =>
    obtain ⟨slot, hslot, hdistinct⟩ := getElem?_slotsFrom 0 htime
    obtain ⟨slot', hslot', hdistinct'⟩ := getElem?_slotsFrom 0 (h.symm.trans htime)
    have hfirst := Fill.firstRow?_of_getElem? (distinct_pairwise hasc) hdistinct
    rw [Fill.firstRow?_of_getElem? (distinct_pairwise hasc) hdistinct', Option.some.injEq] at hfirst
    rw [hslot, hslot', hfirst]

/-- A write and the one of the same cell when the rows are picked. -/
structure Mirrors (rows : List Nat) (w w' : Write) : Prop where
  index : w'.index = w.index
  field : w'.field = w.field.pick rows
  row : rows[w'.row]? = some w.row
  labels : w'.labels = w.labels
  slot : w'.slot = w.slot

theorem Mirrors.key {w w' : Write} (h : Mirrors rows w w') : w'.key = w.key := by
  rw [Write.key, Write.key, h.field, h.labels]
  rfl

theorem exists_mirrors (h : f.Ordered times) (hrows : Reorders rows times) {w : Write}
    (hw : w ∈ f.writes times) : ∃ w' ∈ (f.pick rows).writes times, Mirrors rows w w' := by
  obtain ⟨hindex, hfield, hlabels, hslot⟩ := mem_writes.mp hw
  obtain ⟨place, hplace⟩ := hrows.exists_place (distinct_slot hw).1
  refine ⟨⟨w.index, w.field.pick rows, place, w.labels, w.slot⟩, mem_writes.mpr ⟨?_, ?_, ?_, ?_⟩,
    rfl, rfl, hplace, rfl, rfl⟩
  · rwa [schema_pick]
  · rw [getElem?_pick, hfield, Option.map_some]
  · rw [labelSet_pick hplace]
    exact hlabels
  · rw [← slotsFrom_congr h.ascend (hrows.times place w.row hplace)]
    exact hslot

theorem exists_mirrored (h : f.Ordered times) (hrows : Reorders rows times) {w' : Write}
    (hw' : w' ∈ (f.pick rows).writes times) : ∃ w ∈ f.writes times, Mirrors rows w w' := by
  obtain ⟨hindex, hfield, hlabels, hslot⟩ := mem_writes.mp hw'
  rw [schema_pick] at hindex
  rw [getElem?_pick, Option.map_eq_some_iff] at hfield
  obtain ⟨g, hg, hfield⟩ := hfield
  have hplace : w'.row < rows.length := hrows.length_eq ▸ (distinct_slot hw').1
  have hrow := List.getElem?_eq_getElem hplace
  refine ⟨⟨w'.index, g, rows[w'.row], w'.labels, w'.slot⟩, mem_writes.mpr ⟨hindex, hg, ?_, ?_⟩,
    rfl, hfield.symm, hrow, rfl, rfl⟩
  · rw [← labelSet_pick hrow]
    exact hlabels
  · rw [slotsFrom_congr h.ascend (hrows.times _ _ hrow)]
    exact hslot

/-- Writes that meet in a slot are of one row. -/
theorem row_eq_of_slot (hdiffer : f.RowsDiffer times) {v w : Write} (hv : v ∈ f.writes times)
    (hw : w ∈ f.writes times) (hkey : v.key = w.key) (hslot : v.slot = w.slot) :
    v.row = w.row := by
  obtain ⟨hvrow, hvtime⟩ := distinct_slot hv
  obtain ⟨hwrow, hwtime⟩ := distinct_slot hw
  refine hdiffer v.row w.row hvrow hwrow ?_ ?_
  · rw [← hvtime, ← hwtime, hslot]
  · rw [← (mem_writes.mp hv).2.2.1, ← (mem_writes.mp hw).2.2.1]
    exact (SeriesKey.mk.inj hkey).2

/-- So they are in the same order when the rows are not. -/
theorem Mirrors.before_iff (hrows : Reorders rows times) {v v' w w' : Write}
    (hv : Mirrors rows v v') (hw : Mirrors rows w w') (hrow : v.row = w.row) :
    w'.Before v' ↔ w.Before v := by
  have hplace : v'.row = w'.row := hrows.place_eq hv.row (hrow ▸ hw.row)
  rw [Write.Before, Write.Before, hv.index, hw.index]
  omega

theorem typedCell_mirrors (h : f.Ordered times) {w w' : Write} (hw : w ∈ f.writes times)
    (hmirrors : Mirrors rows w w') :
    w'.field.column.typedCell w'.row = w.field.column.typedCell w.row := by
  rw [hmirrors.field]
  exact Column.typedCell_pick hmirrors.row (inBounds_of_mem_writes h hw).row

/-- The last write to a slot is also made last when the rows are picked, and the other way
round. -/
theorem covers_writes (h : f.Ordered times) (hrows : Reorders rows times)
    (hdiffer : f.RowsDiffer times) :
    Covers (f.writes times) ((f.pick rows).writes times) ∧
      Covers ((f.pick rows).writes times) (f.writes times) := by
  constructor
  · intro w hw
    obtain ⟨w', hw', hmirrors⟩ := exists_mirrors h hrows hw.mem
    refine ⟨w', ⟨hw', fun v' hv' hbefore hkey hslot => ?_⟩, hmirrors.key, hmirrors.slot,
      typedCell_mirrors h hw.mem hmirrors⟩
    obtain ⟨v, hv, hvmirrors⟩ := exists_mirrored h hrows hv'
    rw [hvmirrors.key, hmirrors.key] at hkey
    rw [hvmirrors.slot, hmirrors.slot] at hslot
    have hrow := row_eq_of_slot hdiffer hv hw.mem hkey hslot
    exact hw.last v hv ((hvmirrors.before_iff hrows hmirrors hrow).mp hbefore) hkey hslot
  · intro w' hw'
    obtain ⟨w, hw, hmirrors⟩ := exists_mirrored h hrows hw'.mem
    refine ⟨w, ⟨hw, fun v hv hbefore hkey hslot => ?_⟩, hmirrors.key.symm, hmirrors.slot.symm,
      (typedCell_mirrors h hw hmirrors).symm⟩
    obtain ⟨v', hv', hvmirrors⟩ := exists_mirrors h hrows hv
    have hrow := row_eq_of_slot hdiffer hv hw hkey hslot
    refine hw'.last v' hv' ((hvmirrors.before_iff hrows hmirrors hrow).mpr hbefore) ?_ ?_
    · rw [hvmirrors.key, hmirrors.key, hkey]
    · rw [hvmirrors.slot, hmirrors.slot, hslot]

/-! ## Whether the writes can be made -/

variable {size : Nat} {labels labels' : Labels} {done ws : List Write} {m m' : SeriesMap}

/-- Writes of one label set in their order, of which some are done. -/
structure Running (size : Nat) (labels : Labels) (done ws : List Write) (m : SeriesMap) : Prop where
  holds : Holds size done m
  labels : ∀ w ∈ done ++ ws, w.labels = labels
  bounds : ∀ w ∈ ws, w.InBounds size
  order : (done ++ ws).Pairwise Write.Before

/-- What was written of fields of one name has one kind. -/
theorem Running.kind_eq (h : Running size labels done ws m) {u v : Write} (hu : u ∈ done)
    (hv : v ∈ done) (hname : v.field.name = u.field.name) : v.field.kind = u.field.kind := by
  refine h.holds.kind_eq hu hv ?_
  rw [Write.key, Write.key, hname, h.labels u (List.mem_append_left _ hu),
    h.labels v (List.mem_append_left _ hv)]

/-- A write is made, or a field of its name and another kind was written before. -/
theorem Running.put_cases {w : Write} (h : Running size labels done (w :: ws) m) :
    (∃ m', put size m w = .ok m' ∧ Running size labels (done ++ [w]) ws m') ∨
      ∃ u ∈ done, u.field.name = w.field.name ∧ u.field.kind ≠ w.field.kind ∧
        put size m w = .error (.kindMismatch u.field.kind w.field.kind) := by
  have hbefore : ∀ u ∈ done, u.Before w := fun u hu =>
    (List.pairwise_append.mp h.order).2.2 u hu w List.mem_cons_self
  rcases Pivot.put_cases h.holds (h.bounds w List.mem_cons_self) hbefore with
    ⟨m', hput, hm'⟩ | ⟨u, hu, hkey, hkind, hput⟩
  · left
    refine ⟨m', hput, hm', ?_, fun u hu => h.bounds u (List.mem_cons_of_mem _ hu), ?_⟩
    · rw [← List.append_cons]
      exact h.labels
    · rw [← List.append_cons]
      exact h.order
  · exact .inr ⟨u, hu, (SeriesKey.mk.inj hkey).1, hkind, hput⟩

/-- Writes of one label set and those of another one, of fields of the same names and kinds, are
made alike, or end at the same place with the same error. -/
theorem putAll_map (φ : Write → Write) (hname : ∀ w, (φ w).field.name = w.field.name)
    (hkind : ∀ w, (φ w).field.kind = w.field.kind) (h : Running size labels done ws m)
    (h' : Running size labels' (done.map φ) (ws.map φ) m') :
    (∃ m₁ m₁', putAll size ws m = .ok m₁ ∧ putAll size (ws.map φ) m' = .ok m₁' ∧
        Holds size (done ++ ws) m₁) ∨
      ∃ e, putAll size ws m = .error e ∧ putAll size (ws.map φ) m' = .error e := by
  induction ws generalizing done m m' with
  | nil =>
    refine .inl ⟨m, m', rfl, rfl, ?_⟩
    rw [List.append_nil]
    exact h.holds
  | cons w ws ih =>
    rw [List.map_cons] at h' ⊢
    rw [putAll, putAll]
    rcases h.put_cases with ⟨m₁, hput, h₁⟩ | ⟨u, hu, huname, hukind, hput⟩
    · rcases h'.put_cases with ⟨m₁', hput', h₁'⟩ | ⟨v', hv', hvname, hvkind, -⟩
      · rw [hput, hput', List.append_cons]
        exact ih h₁ (by rwa [List.map_append])
      · -- The field that has another kind for the one series has it for the other.
        obtain ⟨v, hv, rfl⟩ := List.mem_map.mp hv'
        rw [hname, hname] at hvname
        rw [hkind, hkind] at hvkind
        exact absurd (h₁.kind_eq (by simp) (List.mem_append_left _ hv) hvname) hvkind
    · rcases h'.put_cases with ⟨m₁', -, h₁'⟩ | ⟨v', hv', hvname, -, hput'⟩
      · have hφu : φ u ∈ done.map φ ++ [φ w] :=
          List.mem_append_left _ (List.mem_map.mpr ⟨u, hu, rfl⟩)
        have hsame := h₁'.kind_eq (u := φ w) (by simp) hφu (by rw [hname, hname, huname])
        rw [hkind, hkind] at hsame
        exact absurd hsame hukind
      · obtain ⟨v, hv, rfl⟩ := List.mem_map.mp hv'
        rw [hname, hname] at hvname
        have hsame := h.kind_eq hu hv (hvname.trans huname.symm)
        right
        refine ⟨_, by rw [hput], ?_⟩
        rw [hput', hkind, hkind, hsame]

/-- The writes of the first row come first. -/
theorem exists_writes_eq (f : Frame) (hne : times ≠ []) : ∃ slots,
    f.writes times =
      rowWrites f.fields (f.labelSet 0) 0 0 f.schema.valueIndices ++ writesFrom f 1 slots := by
  obtain ⟨t, ts, rfl⟩ := List.exists_cons_of_ne_nil hne
  obtain ⟨slots, hslots⟩ : ∃ slots, slotsFrom 0 (t :: ts) = 0 :: slots := by
    cases ts <;> exact ⟨_, rfl⟩
  exact ⟨slots, by rw [writes, hslots, writesFrom]⟩

theorem running_firstRow (h : f.Ordered times) (hne : times ≠ []) :
    Running (distinct times).length (f.labelSet 0) []
      (rowWrites f.fields (f.labelSet 0) 0 0 f.schema.valueIndices) .empty := by
  obtain ⟨slots, hwrites⟩ := exists_writes_eq f hne
  refine ⟨holds_empty _, fun w hw => (mem_rowWrites.mp hw).2.2.2.1, fun w hw => ?_,
    pairwise_rowWrites f.pairwise_valueIndices⟩
  exact inBounds_of_mem_writes h (hwrites ▸ List.mem_append_left _ hw)

/-- No two writes to one series are of fields of different kinds. -/
def OneKind (f : Frame) (times : List Instant) : Prop :=
  ∀ w ∈ f.writes times, ∀ w' ∈ f.writes times, w'.key = w.key → w'.field.kind = w.field.kind

/-- If the first row gets through, every row does. -/
theorem oneKind_of_firstRow
    (hm : Holds size (rowWrites f.fields (f.labelSet 0) 0 0 f.schema.valueIndices) m) :
    OneKind f times := by
  have hfirst : ∀ w ∈ f.writes times, (⟨w.index, w.field, 0, f.labelSet 0, 0⟩ : Write) ∈
      rowWrites f.fields (f.labelSet 0) 0 0 f.schema.valueIndices := by
    intro w hw
    obtain ⟨hindex, hfield, -⟩ := mem_writes.mp hw
    exact mem_rowWrites.mpr ⟨hindex, hfield, rfl, rfl, rfl⟩
  intro w hw w' hw' hkey
  have hname : w'.field.name = w.field.name := (SeriesKey.mk.inj hkey).1
  have hkeys := congrArg (SeriesKey.mk · (f.labelSet 0)) hname
  have hkind := hm.kind_eq (hfirst w hw) (hfirst w' hw') hkeys
  exact hkind

theorem exists_left (h : f.Ordered times) (hkinds : OneKind f times) :
    ∃ m, putAll (distinct times).length (f.writes times) .empty = .ok m ∧
      Left (distinct times).length (f.writes times) m := by
  rcases putAll_cases (holds_empty (distinct times).length)
      (fun w hw => inBounds_of_mem_writes h hw) (pairwise_writes f times) with
    ⟨m, hput, hm⟩ | ⟨w, hw, w', hw', hkey, hkind, -⟩
  · exact ⟨m, hput, pairwise_writes f times, hm, putAll_blanks hput (blanks_empty _)⟩
  · exact absurd (hkinds w hw w' hw' hkey) hkind

theorem OneKind.pick (hkinds : OneKind f times) (h : f.Ordered times)
    (hrows : Reorders rows times) : OneKind (f.pick rows) times := by
  intro w' hw' v' hv' hkey
  obtain ⟨w, hw, hmirrors⟩ := exists_mirrored h hrows hw'
  obtain ⟨v, hv, hvmirrors⟩ := exists_mirrored h hrows hv'
  rw [hmirrors.key, hvmirrors.key] at hkey
  rw [hmirrors.field, hvmirrors.field]
  exact hkinds w hw v hv hkey

/-- The write of a field to the same place when the rows are picked, for the labels there. -/
def Write.pick (rows : List Nat) (labels : Labels) (w : Write) : Write :=
  { w with field := w.field.pick rows, labels }

theorem rowWrites_pick (f : Frame) (rows : List Nat) (labels labels' : Labels) :
    rowWrites (f.pick rows).fields labels' 0 0 (f.pick rows).schema.valueIndices =
      (rowWrites f.fields labels 0 0 f.schema.valueIndices).map (Write.pick rows labels') := by
  rw [rowWrites, rowWrites, schema_pick, List.map_filterMap]
  refine List.filterMap_congr fun i _ => ?_
  rw [getElem?_pick, Option.map_map, Option.map_map]
  rfl

/-- All writes are made alike when the rows are picked. -/
theorem putAll_pick (h : f.Ordered times) (hne : times ≠ []) (hrows : Reorders rows times)
    (hdiffer : f.RowsDiffer times) :
    putAll (distinct times).length ((f.pick rows).writes times) .empty =
      putAll (distinct times).length (f.writes times) .empty := by
  have h' := h.pick hrows
  have hfirst := running_firstRow h hne
  have hfirst' := running_firstRow h' hne
  have hmap := rowWrites_pick f rows (f.labelSet 0) ((f.pick rows).labelSet 0)
  rw [hmap] at hfirst'
  obtain ⟨slots, hwrites⟩ := exists_writes_eq f hne
  obtain ⟨slots', hwrites'⟩ := exists_writes_eq (f.pick rows) hne
  rcases putAll_map (Write.pick rows _) (fun _ => rfl) (fun _ => rfl) hfirst hfirst' with
    ⟨m₁, m₁', -, -, hholds⟩ | ⟨e, he, he'⟩
  · have hkinds : OneKind f times := oneKind_of_firstRow hholds
    obtain ⟨m, hput, hleft⟩ := exists_left h hkinds
    obtain ⟨m', hput', hleft'⟩ := exists_left h' (hkinds.pick h hrows)
    obtain ⟨hcovers, hcovers'⟩ := covers_writes h hrows hdiffer
    rw [hput, hput', hleft.eq_of_covers hleft' hcovers hcovers']
  · rw [hwrites, hwrites', putAll_append, putAll_append, hmap, he, he']

end Pivot

/-- Spreading does not depend on the order of rows of equal times. -/
theorem Frame.pivot_pick {f : Frame} {rows : List Nat} {times : List Instant} (h : f.Ordered times)
    (hne : times ≠ []) (hrows : Reorders rows times) (hdiffer : f.RowsDiffer times)
    (policy : FillPolicy) :
    (f.pick rows).pivot (f.pick rows).schema policy = f.pivot f.schema policy := by
  obtain ⟨time, htime, -⟩ := Option.map_eq_some_iff.mp h.time
  have htime' : (f.pick rows).fields[(f.pick rows).schema.timeIndex]? = some (time.pick rows) := by
    rw [schema_pick, getElem?_pick, htime, Option.map_some]
  rw [pivot_eq_putAll h htime, pivot_eq_putAll (h.pick hrows) htime',
    Pivot.putAll_pick h hne hrows hdiffer]
  rfl

end SeriesQuery
