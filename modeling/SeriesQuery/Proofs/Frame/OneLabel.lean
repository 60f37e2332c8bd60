import Mathlib.Data.List.Nodup
import SeriesQuery.Proofs.Frame.GapFilled
import SeriesQuery.Proofs.Frame.Parts

/-!
# A label that is the same in all rows

A wide series becomes a long one by a column of texts or truth values, and is then spread before
its gaps are filled.  If the column has the same cell in all rows, there is one label set, and if
the times ascend strictly, each of them has one row.  Then the spreading writes every slot once
and leaves none to fill, so it only puts the columns in order (`Frame.pivot_of_labelSet`).

`Frame.Labelled` says how the two frames differ: the value fields of the one have labels and
stand in the order of their names, behind the times.  The filling reads neither names nor labels,
and works on each field by itself, so it keeps the relation (`Labelled.filled`).  What can make
it fail is the same for both (`Labelled.fillGaps`).
-/

namespace SeriesQuery

/-- A field with other labels. -/
def Field.withLabels (labels : Labels) (g : Field) : Field := { g with labels }

namespace Frame

/-- A wide series whose rows have the given times. -/
structure IsWide (f : Frame) (times : List Instant) : Prop where
  /-- Its fields are those of a wide series. -/
  shape : f.schema.shape = .wide
  /-- The times are in its field of times, and none is null. -/
  time : (f.fields[f.schema.timeIndex]?).map Field.column = some (Pivot.timeColumn times)
  /-- All fields have as many rows as there are times. -/
  aligned : ∀ g ∈ f.fields, g.column.length = times.length
  /-- The times ascend, each from the one before. -/
  ascend : times.Pairwise (· < ·)
  /-- No two value fields have the same name. -/
  distinct : (f.valueFields.map Field.name).Nodup

/-- A frame is another one with labels on the value fields: the times come first, then the value
fields in the order of their names, with the cells they had. -/
structure Labelled (f : Frame) (labels : Labels) (f' : Frame) : Prop where
  name : f'.name = f.name
  note : f'.note = f.note
  fields : ∃ before time after values, f.Parts before time after ∧ f'.fields = time :: values ∧
    values.Perm ((before ++ after).map (Field.withLabels labels)) ∧
      (values.map Field.name).Pairwise (· < ·)

end Frame

/-! ## Filling -/

namespace Frame.Labelled

open Fill

variable {f f' : Frame} {labels : Labels}

theorem filled (h : f.Labelled labels f') {times : List Instant}
    (htimes : f.times f.schema.timeIndex = .ok times) (policy : FillPolicy)
    (buckets : List Instant) :
    (filled f f.schema.timeIndex policy times buckets).Labelled labels
      (filled f' f'.schema.timeIndex policy times buckets) := by
  obtain ⟨before, time, after, values, hparts, hfields, hperm, hsorted⟩ := h.fields
  have hcolumn : time.column = Pivot.timeColumn times := by
    have hget := times_eq_ok_iff.mp htimes
    rw [hparts.getElem?_timeIndex, Option.map_some] at hget
    exact Option.some.inj hget
  have hparts' : f'.Parts [] time values := ⟨hfields, hparts.time, fun g hg => nomatch hg⟩
  refine ⟨h.name, h.note, before.map (onGrid policy times buckets), timeOnGrid buckets time,
    after.map (onGrid policy times buckets), values.map (onGrid policy times buckets),
    ⟨filled_of_parts hparts hcolumn policy buckets, hparts.time, ?_⟩,
    filled_of_parts hparts' hcolumn policy buckets, ?_, ?_⟩
  · intro g hg
    obtain ⟨g', hg', rfl⟩ := List.mem_map.mp hg
    exact hparts.first g' hg'
  · -- The cells on the grid do not depend on the labels.
    have hmap := hperm.map (onGrid policy times buckets)
    rw [List.map_map] at hmap
    rw [← List.map_append, List.map_map]
    exact hmap
  · rw [List.map_map]
    exact hsorted

/-- The times of both frames are the same, and the fields are as long. -/
theorem times_eq (h : f.Labelled labels f') {times : List Instant}
    (htimes : f.times f.schema.timeIndex = .ok times) :
    f'.times f'.schema.timeIndex = .ok times := by
  obtain ⟨before, time, after, values, hparts, hfields, -⟩ := h.fields
  rw [times_eq_ok_iff, hparts.getElem?_timeIndex] at htimes
  rw [times_eq_ok_iff, timeIndex_of_cons hfields hparts.time, hfields]
  exact htimes

theorem aligned (h : f.Labelled labels f') {length : Nat}
    (haligned : ∀ g ∈ f.fields, g.column.length = length) :
    ∀ g ∈ f'.fields, g.column.length = length := by
  obtain ⟨before, time, after, values, hparts, hfields, hperm, -⟩ := h.fields
  have hfields' : (time :: values).Perm
      (time :: (before ++ after).map (Field.withLabels labels)) := hperm.cons time
  intro g hg
  rw [hfields, hfields'.mem_iff, List.mem_cons] at hg
  rcases hg with rfl | hg
  · exact haligned g (hparts.fields ▸ by simp)
  · obtain ⟨g', hg', rfl⟩ := List.mem_map.mp hg
    refine haligned g' (hparts.fields ▸ ?_)
    rcases List.mem_append.mp hg' with hg' | hg' <;> simp [hg']

/-- The gaps of both frames cannot be filled for the same reason, or the frames stay related. -/
theorem fillGaps (h : f.Labelled labels f') {times : List Instant}
    (htimes : f.times f.schema.timeIndex = .ok times) (hasc : times.Pairwise (· < ·))
    (hne : times ≠ []) (haligned : ∀ g ∈ f.fields, g.column.length = times.length)
    (gaps : GapFill) :
    (∃ e, f.fillGaps gaps = .error e ∧ f'.fillGaps gaps = .error e) ∨
      ∃ g g', f.fillGaps gaps = .ok g ∧ f'.fillGaps gaps = .ok g' ∧
        g.fields.map Field.key = f.fields.map Field.key ∧ g.Labelled labels g' := by
  rw [Frame.fillGaps, Frame.fillGaps]
  cases gaps.policy with
  | none => exact .inr ⟨f, f', rfl, rfl, rfl, h⟩
  | some policy =>
    have hle : times.Pairwise (· ≤ ·) := hasc.imp fun hlt => le_of_lt hlt
    dsimp only
    rw [fill_eq_grid htimes hle hne haligned,
      fill_eq_grid (h.times_eq htimes) hle hne (h.aligned haligned)]
    cases grid gaps.range gaps.interval with
    | error e => exact .inl ⟨e, rfl, rfl⟩
    | ok buckets =>
      exact .inr ⟨_, _, rfl, rfl, columns_key _ _, h.filled htimes policy buckets⟩

end Frame.Labelled

/-! ## Spreading -/

namespace Pivot

theorem distinct_of_pairwise {times : List Instant} (hasc : times.Pairwise (· < ·)) :
    distinct times = times := by
  induction times with
  | nil => rfl
  | cons s times ih =>
    rw [List.pairwise_cons] at hasc
    cases times with
    | nil => rfl
    | cons t times => rw [distinct, if_neg (ne_of_lt (hasc.1 t List.mem_cons_self)), ih hasc.2]

/-- A slot that every cell was written to keeps it. -/
theorem fillSlots_map_some {k : Kind} (policy : FillPolicy) (previous : k.Cell)
    (cells : List k.Cell) :
    SeriesCells.fillSlots k policy previous (cells.map some) = cells := by
  induction cells generalizing previous with
  | nil => rfl
  | cons cell cells ih => rw [List.map_cons, SeriesCells.fillSlots_some, ih]

/-- If every row has a time of its own and the labels of a series, then every slot of the series
has the cell of its row. -/
theorem slotsAfter_of_labelSet {f : Frame} {times : List Instant} {labels : Labels}
    (hasc : times.Pairwise (· < ·)) (hlabels : ∀ row < times.length, f.labelSet row = labels)
    {c : Column} (hlength : c.length = times.length) :
    slotsAfter f times labels c times.length = c.cells.toList.map some := by
  rw [slotsAfter, distinct_of_pairwise hasc]
  refine List.ext_getElem? fun i => ?_
  have hcell : c.cells.toList[i]? = c.cells[i]? := Array.getElem?_toList
  rw [List.getElem?_map, List.getElem?_map, hcell]
  by_cases hi : i < times.length
  · have htime := List.getElem?_eq_getElem hi
    rw [htime, Column.cellAt_eq (Nat.lt_of_lt_of_eq hi hlength.symm), Option.map_some,
      Option.map_some, Option.some.injEq]
    refine Frame.lastCell_eq_some_iff.mpr
      ⟨i, hi, hlabels i hi, ⟨_, htime, decide_eq_true rfl⟩, rfl, ?_⟩
    intro later hlt hlater _ time hget
    obtain ⟨hlater', rfl⟩ := List.getElem?_eq_some_iff.mp hget
    exact decide_eq_false (ne_of_gt (List.pairwise_iff_getElem.mp hasc i later hi hlater' hlt))
  · have hsize : c.cells.size ≤ i := Nat.le_trans (Nat.le_of_eq hlength) (Nat.le_of_not_lt hi)
    rw [List.getElem?_eq_none (Nat.le_of_not_lt hi), Array.getElem?_eq_none hsize]
    rfl

/-- The series of a value field is then the field itself, with the labels. -/
theorem seriesField_of_labelSet {f : Frame} {times : List Instant} {labels : Labels}
    (hasc : times.Pairwise (· < ·)) (hlabels : ∀ row < times.length, f.labelSet row = labels)
    {g : Field} (hlength : g.column.length = times.length) (policy : FillPolicy) :
    seriesField policy (⟨g.name, labels⟩, seriesAfter f times labels g.column times.length) =
      g.withLabels labels := by
  obtain ⟨name, labels', ⟨kind, cells⟩⟩ := g
  rw [seriesAfter, slotsAfter_of_labelSet hasc hlabels hlength, seriesField,
    SeriesCells.toColumn]
  dsimp only
  rw [List.toList_toArray, fillSlots_map_some, Array.toArray_toList]
  rfl

/-- Keys of the same labels are in the order of their names. -/
theorem name_lt_of_lt {k l : SeriesKey} (hlabels : k.labels = l.labels) (h : k < l) :
    k.name < l.name := by
  rcases List.cons_lt_cons_iff.mp h with hname | ⟨-, hrest⟩
  · exact hname
  · rw [hlabels] at hrest
    exact absurd hrest (List.lt_irrefl _)

variable {f : Frame} {times : List Instant} {labels : Labels} {m : SeriesMap}

theorem Written.labels_of_mem_keys (hm : Written f times times.length m)
    (hlabels : ∀ row < times.length, f.labelSet row = labels) {key : SeriesKey}
    (hkey : key ∈ m.keys) : key.labels = labels := by
  obtain ⟨g, -, row, hrow, rfl⟩ := hm.mem_keys_iff.mp hkey
  exact hlabels row hrow

/-- The series of one label set are in the order of their names. -/
theorem Written.pairwise_names (hm : Written f times times.length m)
    (hlabels : ∀ row < times.length, f.labelSet row = labels) (policy : FillPolicy) :
    ((m.entries.map (seriesField policy)).map Field.name).Pairwise (· < ·) := by
  have hsorted : (m.keys.map SeriesKey.name).Pairwise (· < ·) := by
    rw [List.pairwise_map]
    refine List.Pairwise.imp_of_mem (fun hk hl hlt => ?_) hm.sorted
    have hsame := hm.labels_of_mem_keys hlabels hl
    exact name_lt_of_lt ((hm.labels_of_mem_keys hlabels hk).trans hsame.symm) hlt
  rw [SortedMap.keys, List.map_map] at hsorted
  rw [List.map_map]
  exact hsorted

/-- They are the value fields, with the labels. -/
theorem Written.mem_series_iff (hm : Written f times times.length m) (h : f.IsLong times)
    (hasc : times.Pairwise (· < ·)) (hne : times ≠ [])
    (hlabels : ∀ row < times.length, f.labelSet row = labels) (policy : FillPolicy) {g : Field} :
    g ∈ m.entries.map (seriesField policy) ↔ g ∈ f.valueFields.map (Field.withLabels labels) := by
  have hfield : ∀ v ∈ f.valueFields,
      seriesField policy (⟨v.name, labels⟩, seriesAfter f times labels v.column times.length) =
        v.withLabels labels := fun v hv =>
    seriesField_of_labelSet hasc hlabels (h.aligned v (mem_fields_of_mem_valueFields hv)) policy
  constructor
  · intro hg
    obtain ⟨entry, hentry, rfl⟩ := List.mem_map.mp hg
    obtain ⟨v, hv, hentryEq⟩ := hm.mem_entries hentry
    have hkey : entry.1 ∈ m.keys := List.mem_map.mpr ⟨entry, hentry, rfl⟩
    rw [hm.labels_of_mem_keys hlabels hkey] at hentryEq
    rw [hentryEq, hfield v hv]
    exact List.mem_map.mpr ⟨v, hv, rfl⟩
  · intro hg
    obtain ⟨v, hv, rfl⟩ := List.mem_map.mp hg
    have hrow : 0 < times.length := List.length_pos_of_ne_nil hne
    have hfind := hm.seen v hv 0 hrow
    rw [hlabels 0 hrow] at hfind
    have hentry := (SortedMap.mem_entries_iff SeriesKey.lt_irrefl hm.sorted).mpr hfind
    exact List.mem_map.mpr ⟨_, hentry, hfield v hv⟩

end Pivot

open Pivot in
/-- Spreading rows of different times that all have one label set puts this on the value fields,
and these in the order of their names. -/
theorem Frame.pivot_of_labelSet {f : Frame} {times : List Instant} {labels : Labels}
    (h : f.IsLong times) (hasc : times.Pairwise (· < ·)) (hne : times ≠ [])
    (hlabels : ∀ row < times.length, f.labelSet row = labels) {time : Field}
    (htime : f.fields[f.schema.timeIndex]? = some time) (policy : FillPolicy) :
    ∃ values, f.pivot f.schema policy =
        .ok { f with fields := .ofColumn time.name (timeColumn times) :: values } ∧
      values.Perm (f.valueFields.map (Field.withLabels labels)) ∧
        (values.map Field.name).Pairwise (· < ·) := by
  obtain ⟨m, hm, hpivot⟩ := pivot_eq_written h htime policy
  rw [distinct_of_pairwise hasc] at hpivot
  have hsorted := hm.pairwise_names hlabels policy
  have hnodup : ((f.valueFields.map (Field.withLabels labels)).map Field.name).Nodup := by
    rw [List.map_map]
    exact h.distinct
  have hnodup' : ((m.entries.map (seriesField policy)).map Field.name).Nodup := by
    refine hsorted.imp fun {a b} (hlt : a < b) he => ?_
    exact String.lt_irrefl b (he ▸ hlt)
  refine ⟨_, hpivot, ?_, hsorted⟩
  exact (List.perm_ext_iff_of_nodup (List.Nodup.of_map _ hnodup')
    (List.Nodup.of_map _ hnodup)).mpr fun _ => hm.mem_series_iff h hasc hne hlabels policy

/-! ## Assembling -/

namespace Frame

variable {f f' : Frame} {times : List Instant}

theorem IsWide.not_label (h : f.IsWide times) : ∀ g ∈ f.fields, Schema.isLabelKind g.kind = false :=
  fun _ hg => (Schema.shape_eq_wide_iff.mp h.shape).2.2 _ (List.mem_map.mpr ⟨_, hg, rfl⟩)

theorem IsWide.others_not_label (h : f.IsWide times) {before after : List Field} {time : Field}
    (hparts : f.Parts before time after) :
    ∀ g ∈ before ++ after, Schema.isLabelKind g.kind = false := by
  intro g hg
  refine h.not_label g ?_
  rw [hparts.fields]
  rcases List.mem_append.mp hg with hg | hg <;> simp [hg]

/-- If all fields but one are values, this one is the label and the others are the values. -/
theorem Parts.eq_of_one_label {before after others others' : List Field} {time label : Field}
    (hparts : f.Parts before time after) (hothers : before ++ after = others ++ label :: others')
    (hlabel : Schema.isLabelKind label.kind = true)
    (hnot : ∀ g ∈ others ++ others', Schema.isLabelKind g.kind = false) :
    f.valueFields = others ++ others' ∧ f.labelFields = [label] := by
  constructor
  · rw [hparts.valueFields, hothers, List.filter_append, List.filter_cons_of_neg (by simp [hlabel]),
      ← List.filter_append, List.filter_eq_self]
    exact fun g hg => by rw [hnot g hg]; rfl
  · have hnil : (others ++ others').filter (fun g => Schema.isLabelKind g.kind) = [] :=
      List.filter_eq_nil_iff.mpr fun g hg => by rw [hnot g hg]; exact Bool.false_ne_true
    rw [List.filter_append, List.append_eq_nil_iff] at hnil
    rw [hparts.labelFields, hothers, List.filter_append, List.filter_cons, if_pos hlabel, hnil.1,
      hnil.2]
    rfl

/-- With a label a wide series is a long one. -/
theorem shape_of_label {label : Field} (h : f.schema.shape = .wide)
    (hmem : ∀ g, g ∈ f'.fields ↔ g = label ∨ g ∈ f.fields)
    (hlabel : Schema.isLabelKind label.kind = true) : f'.schema.shape = .long := by
  obtain ⟨htime, ⟨k, hk, hnumeric⟩, -⟩ := Schema.shape_eq_wide_iff.mp h
  have hkinds : ∀ k ∈ f.fields.map Field.kind, k ∈ f'.fields.map Field.kind := by
    intro k hk
    obtain ⟨g, hg, rfl⟩ := List.mem_map.mp hk
    exact List.mem_map.mpr ⟨g, (hmem g).mpr (.inr hg), rfl⟩
  exact Schema.shape_eq_long_iff.mpr ⟨hkinds _ htime, ⟨k, hkinds k hk, hnumeric⟩, label.kind,
    List.mem_map.mpr ⟨label, (hmem label).mpr (.inl rfl), rfl⟩, hlabel⟩

variable {left right : List Field} {label : Field}

/-- With a label that is put in somewhere a wide series is a long one with the same values. -/
theorem IsWide.insert (h : f.IsWide times) (hfields : f.fields = left ++ right)
    (hfields' : f'.fields = left ++ label :: right)
    (hlabel : Schema.isLabelKind label.kind = true) (hlength : label.column.length = times.length) :
    f'.IsLong times ∧ f'.labelFields = [label] ∧ ∃ before time after,
      f.Parts before time after ∧ f'.fields[f'.schema.timeIndex]? = some time ∧
        f'.valueFields = before ++ after := by
  have hkind : label.kind ≠ .timestamp := by
    intro hkind
    rw [hkind] at hlabel
    cases hlabel
  have hshape : f.schema.shape ≠ .none := by
    rw [h.shape]
    decide
  have hmem : ∀ g, g ∈ f'.fields ↔ g = label ∨ g ∈ f.fields := by
    intro g
    rw [hfields, hfields', List.mem_append, List.mem_append, List.mem_cons, or_left_comm]
  obtain ⟨before, time, after, hparts⟩ := exists_parts hshape
  obtain ⟨before', after', others, others', hparts', hothers, hothers'⟩ :=
    hparts.insert hfields hfields' hkind
  have hnot := h.others_not_label hparts
  have hvalues : f.valueFields = before ++ after := by
    rw [hparts.valueFields, List.filter_eq_self]
    exact fun g hg => by rw [hnot g hg]; rfl
  rw [hothers] at hnot hvalues
  obtain ⟨hvalues', hlabels⟩ := hparts'.eq_of_one_label hothers' hlabel hnot
  have htimes := h.time
  rw [hparts.getElem?_timeIndex, ← hparts'.getElem?_timeIndex] at htimes
  refine ⟨⟨shape_of_label h.shape hmem hlabel, htimes, fun g hg => ?_,
    h.ascend.imp fun hlt => le_of_lt hlt, ?_⟩, hlabels,
    before, time, after, hparts, hparts'.getElem?_timeIndex, hvalues'.trans hothers.symm⟩
  · rcases (hmem g).mp hg with rfl | hg
    · exact hlength
    · exact h.aligned g hg
  · rw [hvalues', ← hvalues]
    exact h.distinct

/-- If the label has the same cell in all rows, spreading only puts it on the values and these in
order. -/
theorem IsWide.pivot_insert (h : f.IsWide times) (hrows : times ≠ [])
    (hplain : ∀ g ∈ f.fields, g.labels = .empty) (hfields : f.fields = left ++ right)
    (hframe : f' = { f with fields := left ++ label :: right })
    (hlabel : Schema.isLabelKind label.kind = true) {cell : label.column.kind.Cell}
    (hcells : label.column.cells = Array.replicate times.length cell) (policy : FillPolicy) :
    f'.IsLong times ∧ ∃ wide, f'.pivot f'.schema policy = .ok wide ∧
      f.Labelled (.insert .empty label.name (label.column.labelText 0)) wide := by
  have hlength : label.column.length = times.length := by simp [Column.length, hcells]
  have hfields' : f'.fields = left ++ label :: right := congrArg Frame.fields hframe
  obtain ⟨hlong, hlabels, before, time, after, hparts, htime, hvalues⟩ :=
    h.insert hfields hfields' hlabel hlength
  have hset : ∀ row < times.length,
      f'.labelSet row = .insert .empty label.name (label.column.labelText 0) := by
    intro row hlt
    have hrow : 0 < times.length := List.length_pos_of_ne_nil hrows
    have htext : label.column.labelText row = label.column.labelText 0 := by
      simp [Column.labelText, hcells, hlt, hrow]
    rw [labelSet, hlabels, ← htext]
    rfl
  obtain ⟨values, hpivot, hperm, hsorted⟩ :=
    pivot_of_labelSet hlong h.ascend hrows hset htime policy
  -- The field of times has no labels to lose.
  have htimeEq : Field.ofColumn time.name (Pivot.timeColumn times) = time := by
    have hcolumn := h.time
    rw [hparts.getElem?_timeIndex, Option.map_some, Option.some.injEq] at hcolumn
    have hnone := hplain time (hparts.fields ▸ by simp)
    obtain ⟨name, labels, column⟩ := time
    cases hnone
    cases hcolumn
    rfl
  rw [htimeEq] at hpivot
  refine ⟨hlong, _, hpivot, by rw [hframe], by rw [hframe], ?_⟩
  exact ⟨before, time, after, values, hparts, rfl, hvalues ▸ hperm, hsorted⟩

end Frame

namespace Table

/-- A table of a wide series, and the same with a column more of texts or truth values, which is
put in somewhere and has one cell in all rows, null or not.  Either no frame can be made of both
for the same reason, or the frames are the same but for the label set on the value fields and
the order of the fields. -/
theorem assemble_oneLabel (before after : List TableColumn) (label : TableColumn)
    (times : List Instant) (cell : label.column.kind.Cell) (gaps : GapFill)
    (hwide : (Table.toFrame ⟨before ++ after⟩ Frame.responseName).IsWide times) (hrows : times ≠ [])
    (hlabel : Schema.isLabelKind label.column.kind = true)
    (hcells : label.column.cells = Array.replicate times.length cell) :
    (∃ e, assemble ⟨before ++ after⟩ .timeseries gaps = .error e ∧
      assemble ⟨before ++ label :: after⟩ .timeseries gaps = .error e) ∨
      ∃ g g', assemble ⟨before ++ after⟩ .timeseries gaps = .ok g ∧
        assemble ⟨before ++ label :: after⟩ .timeseries gaps = .ok g' ∧
        g.fields.map Field.key = (before ++ after).map (fun c => ⟨c.name, .empty⟩) ∧
        g.Labelled (.insert .empty label.name (label.column.labelText 0)) g' := by
  generalize hf : Table.toFrame ⟨before ++ after⟩ Frame.responseName = f at hwide
  generalize hf' : Table.toFrame ⟨before ++ label :: after⟩ Frame.responseName = f'
  have hfields : f.fields = before.map (fun c => .ofColumn c.name c.column) ++
      after.map fun c => .ofColumn c.name c.column := by
    rw [← hf, toFrame, List.map_append]
  have hframe : f' = { f with
      fields := before.map (fun c => .ofColumn c.name c.column) ++
        .ofColumn label.name label.column ::
          after.map (fun c => .ofColumn c.name c.column) } := by
    rw [← hf, ← hf', toFrame, List.map_append]
    rfl
  have hplain : ∀ g ∈ f.fields, g.labels = .empty := by
    intro g hg
    rw [← hf] at hg
    obtain ⟨c, -, rfl⟩ := List.mem_map.mp hg
    rfl
  obtain ⟨hlong, wide, hpivot, hlabelled⟩ :=
    hwide.pivot_insert hrows hplain hfields hframe hlabel hcells (gaps.policy.getD .null)
  have hcount : Table.rowCount ⟨before ++ after⟩ ≠ 0 := by
    rw [rowCount_of_times (hf ▸ hwide.time) (hf ▸ hwide.aligned)]
    exact mt List.length_eq_zero_iff.mp hrows
  have hcount' : Table.rowCount ⟨before ++ label :: after⟩ ≠ 0 := by
    rw [rowCount_of_times (hf' ▸ hlong.time) (hf' ▸ hlong.aligned)]
    exact mt List.length_eq_zero_iff.mp hrows
  have hnames : f.fields.map Field.key = (before ++ after).map fun c => ⟨c.name, .empty⟩ := by
    rw [← hf, toFrame, List.map_map]
    rfl
  rw [assemble_of_wide hcount (by rw [hf]; exact hwide.shape),
    assemble_of_spread hcount' (by rw [hf']; exact hlong.shape), hf, hf', hpivot]
  rcases hlabelled.fillGaps (Frame.times_eq_ok_iff.mpr hwide.time) hwide.ascend hrows
    hwide.aligned gaps with herror | ⟨g, g', hg, hg', hkeys, h⟩
  · exact .inl herror
  · exact .inr ⟨g, g', hg, hg', hkeys.trans hnames, h⟩

/-- Temperatures and loads at two times, which stand between them. -/
def loads : Table :=
  ⟨[⟨"temperature", ⟨.float, #[some ⟨0⟩, none]⟩⟩,
    ⟨"time", Pivot.timeColumn [.near 0 0, .near 120 0]⟩,
    ⟨"load", ⟨.integer, #[some 1, some 2]⟩⟩]⟩

/-- A host that is the same in both rows. -/
def oneHost : TableColumn := ⟨"host", ⟨.string, #[some "a", some "a"]⟩⟩

/-- The minutes of the two times and the one between. -/
def threeMinutes : GapFill := ⟨⟨.near 0 0, .near 120 0⟩, Span.ofSeconds 60, some .previous⟩

/-- The minute between is filled alike, and behind the times the loads come first. -/
theorem assemble_oneLabel_loads : ∃ g g', loads.assemble .timeseries threeMinutes = .ok g ∧
    assemble ⟨oneHost :: loads.columns⟩ .timeseries threeMinutes = .ok g' ∧
    g.Labelled (.insert .empty "host" "a") g' ∧
    g.fields.map Field.name = ["temperature", "time", "load"] ∧
    g'.fields.map Field.name = ["time", "load", "temperature"] := by
  have hwide : (Table.toFrame ⟨[] ++ loads.columns⟩ Frame.responseName).IsWide
      [.near 0 0, .near 120 0] :=
    ⟨by decide, rfl, by decide, by decide, by decide⟩
  obtain ⟨g, hg⟩ : ∃ g, loads.assemble .timeseries threeMinutes = .ok g := ⟨_, rfl⟩
  rcases assemble_oneLabel [] loads.columns oneHost [.near 0 0, .near 120 0] (some "a") threeMinutes
    hwide (List.cons_ne_nil _ _) rfl rfl with ⟨e, he, -⟩ | ⟨g₁, g', hg₁, hg', -, hlabelled⟩
  · cases hg.symm.trans he
  · cases hg.symm.trans hg₁
    refine ⟨g, g', hg, hg', hlabelled, ?_, ?_⟩
    · cases hg
      rfl
    · cases hg'
      rfl

end Table

end SeriesQuery
