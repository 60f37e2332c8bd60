import SeriesQuery.Proofs.Frame.Long

/-!
# What spreading a long series gives

The rows are written one after the other, and `Written` says what stands in the map
after some of them: a series for every value field and every label set of these rows,
and in each of its slots the cell of the last of these rows that has the time of the
slot.  A row keeps this (`writeRow_written`), so all rows do (`writeRows_written`), and
nothing can go wrong on the way (`pivot_eq`).

The map lists its series by their keys, of which no two are the same, since keys are
linearly ordered by their spines.
-/

namespace SeriesQuery

/-! ## The order of keys -/

namespace SeriesKey

theorem labels_eq_of_spine {es fs : List (String × String)}
    (h : (es.flatMap fun e => [e.1, e.2]) = fs.flatMap fun e => [e.1, e.2]) : es = fs := by
  induction es generalizing fs with
  | nil =>
    cases fs with
    | nil => rfl
    | cons f fs => cases h
  | cons e es ih =>
    cases fs with
    | nil => cases h
    | cons f fs =>
      simp only [List.flatMap_cons, List.cons_append, List.nil_append, List.cons.injEq] at h
      obtain ⟨hname, htext, hrest⟩ := h
      rw [Prod.ext hname htext, ih hrest]

/-- A key is determined by its spine. -/
theorem eq_of_spine {k l : SeriesKey} (h : k.spine = l.spine) : k = l := by
  obtain ⟨name, ⟨entries⟩⟩ := k
  obtain ⟨name', ⟨entries'⟩⟩ := l
  obtain ⟨hname, hlabels⟩ := List.cons.inj h
  dsimp only at hname hlabels
  rw [hname, labels_eq_of_spine hlabels]

theorem lt_irrefl (k : SeriesKey) : ¬ k < k := List.lt_irrefl k.spine

theorem lt_trans {k l m : SeriesKey} (hkl : k < l) (hlm : l < m) : k < m :=
  List.lt_trans hkl hlm

theorem lt_of_ne {k l : SeriesKey} (hne : k ≠ l) (hnot : ¬ k < l) : l < k := by
  have htri : Std.Trichotomous fun a b : List String => a < b := inferInstance
  exact Decidable.byContradiction fun hnot' => hne (eq_of_spine (htri.trichotomous _ _ hnot hnot'))

end SeriesKey

/-- A cell of the kind of a series is written into a slot that the series has. -/
theorem SeriesCells.write_of_lt {k : Kind} {slots : List (Option k.Cell)} {slot row : Nat}
    {source : Column} {cell : k.Cell} (hcell : Column.cellAs k source row = .ok cell)
    (hslot : slot < slots.length) :
    write ⟨k, slots.toArray⟩ slot source row = .ok ⟨k, (slots.set slot (some cell)).toArray⟩ := by
  rw [write, hcell]
  dsimp only
  rw [dif_pos (List.size_toArray ▸ hslot), List.set_toArray]

namespace Pivot

/-- Giving a key a series keeps the keys of a map ascending. -/
theorem sorted_insert_series {m : SeriesMap} (hm : m.Sorted) (key : SeriesKey)
    (s : SeriesCells) : (m.insert key s).Sorted :=
  SortedMap.sorted_insert SeriesKey.lt_trans SeriesKey.lt_of_ne hm key s

/-! ## Reading fields by index -/

/-- The fields of some indices. -/
def fieldsAt (fields : List Field) (indices : List Nat) : List Field :=
  indices.filterMap (fields[·]?)

theorem fieldsAt_cons {fields : List Field} {i : Nat} {g : Field} (h : fields[i]? = some g)
    (indices : List Nat) : fieldsAt fields (i :: indices) = g :: fieldsAt fields indices :=
  List.filterMap_cons_some h

theorem fieldAt_of_getElem? {fields : List Field} {i : Nat} {g : Field}
    (h : fields[i]? = some g) : fieldAt fields i = .ok g := by
  rw [fieldAt, h]

/-- The labels of a row are those that the label fields have there. -/
theorem labelsAt_eq {fields : List Field} {indices : List Nat}
    (h : ∀ i ∈ indices, i < fields.length) (row : Nat) (before : Labels) :
    labelsAt fields row indices before =
      .ok (((fieldsAt fields indices).map fun g => (g.name, g.column.labelText row)).foldl
        (fun m e => m.insert e.1 e.2) before) := by
  induction indices generalizing before with
  | nil => rfl
  | cons i indices ih =>
    have hget := List.getElem?_eq_getElem (h i List.mem_cons_self)
    rw [labelsAt, fieldAt_of_getElem? hget, fieldsAt_cons hget]
    exact ih (fun j hj => h j (List.mem_cons_of_mem _ hj)) _

/-! ## Writing a row -/

/-- A row whose cells all enter their series is written, each into the series of its
field and of the labels of the row; the other series stay. -/
theorem writeRow_eq {fields : List Field} {indices : List Nat} {size slot row : Nat}
    {labels : Labels} (hindices : ∀ i ∈ indices, i < fields.length)
    (hnames : ((fieldsAt fields indices).map Field.name).Nodup) (after : Field → SeriesCells)
    {m : SeriesMap} (hsorted : m.Sorted)
    (hwrite : ∀ g ∈ fieldsAt fields indices,
      ((m.find? ⟨g.name, labels⟩).getD (.blank g.kind size)).write slot g.column row =
        .ok (after g)) :
    ∃ m', writeRow fields size slot row labels indices m = .ok m' ∧ m'.Sorted ∧
      (∀ g ∈ fieldsAt fields indices, m'.find? ⟨g.name, labels⟩ = some (after g)) ∧
      ∀ key, (∀ g ∈ fieldsAt fields indices, key ≠ ⟨g.name, labels⟩) →
        m'.find? key = m.find? key := by
  induction indices generalizing m with
  | nil => exact ⟨m, rfl, hsorted, fun g hg => (nomatch hg), fun key _ => rfl⟩
  | cons i indices ih =>
    obtain ⟨g, hget⟩ : ∃ g, fields[i]? = some g :=
      ⟨_, List.getElem?_eq_getElem (hindices i List.mem_cons_self)⟩
    rw [fieldsAt_cons hget] at hnames hwrite ⊢
    rw [List.map_cons, List.nodup_cons] at hnames
    -- The series of the first field is none of those of the others.
    have hother : ∀ h ∈ fieldsAt fields indices,
        (⟨g.name, labels⟩ : SeriesKey) ≠ ⟨h.name, labels⟩ := fun h hh he =>
      hnames.1 (List.mem_map.mpr ⟨h, hh, (SeriesKey.mk.inj he).1.symm⟩)
    have hrest : ∀ h ∈ fieldsAt fields indices,
        (((m.insert ⟨g.name, labels⟩ (after g)).find? ⟨h.name, labels⟩).getD
          (.blank h.kind size)).write slot h.column row = .ok (after h) := fun h hh => by
      rw [SortedMap.find?_insert_of_ne m (hother h hh)]
      exact hwrite h (List.mem_cons_of_mem _ hh)
    obtain ⟨m', hm', hsorted', hafter, hframe⟩ :=
      ih (fun j hj => hindices j (List.mem_cons_of_mem _ hj)) hnames.2
        (sorted_insert_series hsorted _ (after g)) hrest
    refine ⟨m', ?_, hsorted', fun h hh => ?_, fun key hkey => ?_⟩
    · rw [writeRow, fieldAt_of_getElem? hget]
      dsimp only
      rw [hwrite g List.mem_cons_self]
      exact hm'
    · rcases List.mem_cons.mp hh with rfl | hh
      · rw [hframe _ hother, SortedMap.find?_insert]
      · exact hafter h hh
    · rw [hframe key fun h hh => hkey h (List.mem_cons_of_mem _ hh),
        SortedMap.find?_insert_of_ne m (hkey g List.mem_cons_self).symm]

/-! ## The slots of a series -/

/-- The slots of a series after so many rows: for every distinct time the cell of the
last of these rows that has this time and the labels of the series. -/
def slotsAfter (f : Frame) (times : List Instant) (labels : Labels) (c : Column)
    (count : Nat) : List (Option c.kind.Cell) :=
  (distinct times).map fun time => f.lastCell times labels c (· = time) count

/-- A series after so many rows. -/
def seriesAfter (f : Frame) (times : List Instant) (labels : Labels) (c : Column)
    (count : Nat) : SeriesCells :=
  ⟨c.kind, (slotsAfter f times labels c count).toArray⟩

/-- A row of other labels changes nothing in a series. -/
theorem slotsAfter_succ_of_ne {f : Frame} {times : List Instant} {labels : Labels} {c : Column}
    {count : Nat} (h : f.labelSet count ≠ labels) :
    slotsAfter f times labels c (count + 1) = slotsAfter f times labels c count := by
  refine List.map_congr_left fun time _ => ?_
  have hnot : ¬ f.isRowOf times labels (· = time) count = true := fun hrow =>
    h (Frame.isRowOf_iff.mp hrow).1
  rw [Frame.lastCell, lastRow?, if_neg hnot]
  rfl

/-- Without a row of its labels a series is blank. -/
theorem seriesAfter_of_unseen {f : Frame} {times : List Instant} {labels : Labels} {c : Column}
    {count : Nat} (h : ∀ row < count, f.labelSet row ≠ labels) :
    seriesAfter f times labels c count = .blank c.kind (distinct times).length := by
  have hslots : slotsAfter f times labels c count =
      List.replicate (distinct times).length none := by
    refine List.eq_replicate_iff.mpr ⟨List.length_map _, fun slot hslot => ?_⟩
    obtain ⟨time, -, rfl⟩ := List.mem_map.mp hslot
    exact Frame.lastCell_eq_none_iff.mpr fun row hrow hlabels => absurd hlabels (h row hrow)
  rw [seriesAfter, hslots, SeriesCells.blank, List.toArray_replicate]

/-- A row writes the slot of its time in the series of its labels. -/
theorem write_seriesAfter {f : Frame} {times : List Instant} (hasc : times.Pairwise (· ≤ ·))
    {c : Column} {row slot : Nat} {time : Instant} (htime : times[row]? = some time)
    (hslot : (distinct times)[slot]? = some time) (hrow : row < c.length) :
    (seriesAfter f times (f.labelSet row) c row).write slot c row =
      .ok (seriesAfter f times (f.labelSet row) c (row + 1)) := by
  have hcell : Column.cellAs c.kind c row = .ok (c.cellAt row) :=
    (Column.cellAs_self c row).trans (if_pos hrow)
  have hsize : slot < (slotsAfter f times (f.labelSet row) c row).length := by
    rw [slotsAfter, List.length_map]
    exact (List.getElem?_eq_some_iff.mp hslot).1
  have hset : (slotsAfter f times (f.labelSet row) c row).set slot (some (c.cellAt row)) =
      slotsAfter f times (f.labelSet row) c (row + 1) := by
    refine List.ext_getElem? fun i => ?_
    rw [List.getElem?_set, slotsAfter, slotsAfter, List.length_map, List.getElem?_map,
      List.getElem?_map]
    by_cases hi : slot = i
    · subst hi
      have hof : f.isRowOf times (f.labelSet row) (· = time) row = true :=
        Frame.isRowOf_iff.mpr ⟨rfl, time, htime, decide_eq_true rfl⟩
      rw [if_pos rfl, if_pos (List.getElem?_eq_some_iff.mp hslot).1, hslot, Option.map_some,
        Frame.lastCell, lastRow?, if_pos hof, Option.map_some]
    · rw [if_neg hi]
      cases hother : (distinct times)[i]? with
      | none => rfl
      | some time' =>
        -- The times of two slots differ, so the row is none of the other slot.
        have hne : ¬ f.isRowOf times (f.labelSet row) (· = time') row = true := by
          rw [Frame.isRowOf_iff]
          rintro ⟨-, t, ht, heq⟩
          rw [htime, Option.some.injEq] at ht
          subst ht
          obtain rfl := of_decide_eq_true heq
          have hdistinct := distinct_pairwise hasc
          have hfirst := Fill.firstRow?_of_getElem? hdistinct hother
          rw [Fill.firstRow?_of_getElem? hdistinct hslot, Option.some.injEq] at hfirst
          exact hi hfirst
        rw [Option.map_some, Option.map_some, Frame.lastCell, Frame.lastCell, lastRow?,
          if_neg hne]
  rw [seriesAfter, SeriesCells.write_of_lt hcell hsize, hset, seriesAfter]

/-! ## Writing all rows -/

/-- What stands in the map after so many rows. -/
structure Written (f : Frame) (times : List Instant) (count : Nat) (m : SeriesMap) : Prop where
  /-- The keys ascend. -/
  sorted : m.Sorted
  /-- Every value field has a series for the labels of every one of these rows. -/
  seen : ∀ g ∈ f.valueFields, ∀ row < count, m.find? ⟨g.name, f.labelSet row⟩ =
    some (seriesAfter f times (f.labelSet row) g.column count)
  /-- There are no other series. -/
  only : ∀ key s, m.find? key = some s →
    ∃ g ∈ f.valueFields, ∃ row < count, key = ⟨g.name, f.labelSet row⟩

theorem written_empty (f : Frame) (times : List Instant) : Written f times 0 .empty :=
  ⟨List.Pairwise.nil, fun _ _ _ h => (nomatch h), fun _ _ h => (nomatch h)⟩

/-- The series that a row writes into is the one of the rows before it, which is blank
if none of them has its labels. -/
theorem Written.getD_find? {f : Frame} {times : List Instant} {row : Nat} {m : SeriesMap}
    (hm : Written f times row m) {g : Field} (hg : g ∈ f.valueFields) :
    (m.find? ⟨g.name, f.labelSet row⟩).getD (.blank g.kind (distinct times).length) =
      seriesAfter f times (f.labelSet row) g.column row := by
  by_cases hseen : ∃ before < row, f.labelSet before = f.labelSet row
  · obtain ⟨before, hlt, heq⟩ := hseen
    have hfind := hm.seen g hg before hlt
    rw [heq] at hfind
    rw [hfind, Option.getD_some]
  · have hunseen : ∀ before < row, f.labelSet before ≠ f.labelSet row := fun before hlt heq =>
      hseen ⟨before, hlt, heq⟩
    cases hfind : m.find? ⟨g.name, f.labelSet row⟩ with
    | none =>
      rw [Option.getD_none, seriesAfter_of_unseen hunseen]
      rfl
    | some s =>
      obtain ⟨_, -, before, hlt, hkey⟩ := hm.only _ s hfind
      exact absurd (SeriesKey.mk.inj hkey).2.symm (hunseen before hlt)

theorem mem_fields_of_mem_valueFields {f : Frame} {g : Field} (hg : g ∈ f.valueFields) :
    g ∈ f.fields := by
  obtain ⟨i, -, hi⟩ := List.mem_filterMap.mp hg
  exact List.mem_of_getElem? hi

/-- A row is written, and the map is then as it should be after one row more. -/
theorem writeRow_written {f : Frame} {times : List Instant} (h : f.IsLong times)
    {row slot : Nat} {time : Instant} (htime : times[row]? = some time)
    (hslot : (distinct times)[slot]? = some time) {m : SeriesMap} (hm : Written f times row m) :
    ∃ m', writeRow f.fields (distinct times).length slot row (f.labelSet row)
        f.schema.valueIndices m = .ok m' ∧ Written f times (row + 1) m' := by
  obtain ⟨m', hwrite, hsorted, hafter, hframe⟩ :=
    writeRow_eq (fun i hi => Frame.lt_of_mem_schema (.inl hi)) h.distinct
      (fun g => seriesAfter f times (f.labelSet row) g.column (row + 1)) hm.sorted
      (fun g hg => by
        rw [hm.getD_find? hg]
        refine write_seriesAfter h.ascend htime hslot ?_
        rw [h.aligned g (mem_fields_of_mem_valueFields hg)]
        exact (List.getElem?_eq_some_iff.mp htime).1)
  refine ⟨m', hwrite, hsorted, fun g hg before hlt => ?_, fun key s hfind => ?_⟩
  · by_cases hlabels : f.labelSet before = f.labelSet row
    · rw [hlabels]
      exact hafter g hg
    · have hbefore : before < row := by
        rcases Nat.lt_succ_iff_lt_or_eq.mp hlt with hlt | rfl
        · exact hlt
        · exact absurd rfl hlabels
      rw [hframe _ fun g' _ hkey => hlabels (SeriesKey.mk.inj hkey).2,
        hm.seen g hg before hbefore, seriesAfter, seriesAfter,
        slotsAfter_succ_of_ne (Ne.symm hlabels)]
  · by_cases hkey : ∃ g ∈ f.valueFields, key = ⟨g.name, f.labelSet row⟩
    · obtain ⟨g, hg, rfl⟩ := hkey
      exact ⟨g, hg, row, Nat.lt_succ_self _, rfl⟩
    · rw [hframe key fun g hg he => hkey ⟨g, hg, he⟩] at hfind
      obtain ⟨g, hg, before, hlt, he⟩ := hm.only key s hfind
      exact ⟨g, hg, before, Nat.lt_succ_of_lt hlt, he⟩

/-- All rows from a row on are written. -/
theorem writeRows_written {f : Frame} {times : List Instant} (h : f.IsLong times) {row : Nat}
    {slots : List Nat} (hslots : (slotsFrom 0 times).drop row = slots)
    (hrow : row ≤ times.length) {m : SeriesMap} (hm : Written f times row m) :
    ∃ m', writeRows f.fields f.schema (distinct times).length row slots m = .ok m' ∧
      Written f times times.length m' := by
  induction slots generalizing row m with
  | nil =>
    have hle : times.length ≤ row := by
      rw [List.drop_eq_nil_iff, length_slotsFrom] at hslots
      exact hslots
    exact ⟨m, rfl, Nat.le_antisymm hrow hle ▸ hm⟩
  | cons slot slots ih =>
    have hslot : (slotsFrom 0 times)[row]? = some slot := by
      rw [← List.head?_drop, hslots, List.head?_cons]
    have hlt : row < times.length := by
      rw [← length_slotsFrom 0 times]
      exact (List.getElem?_eq_some_iff.mp hslot).1
    have htime := List.getElem?_eq_getElem hlt
    obtain ⟨place, hplace, hdistinct⟩ := getElem?_slotsFrom 0 htime
    rw [hslot, Nat.zero_add, Option.some.injEq] at hplace
    subst hplace
    obtain ⟨m₁, hwrite, hm₁⟩ := writeRow_written h htime hdistinct hm
    have hdrop : (slotsFrom 0 times).drop (row + 1) = slots := by
      rw [← List.tail_drop, hslots, List.tail_cons]
    obtain ⟨m₂, hrest, hm₂⟩ := ih hdrop hlt hm₁
    have hlabels : labelsAt f.fields row f.schema.labelIndices .empty = .ok (f.labelSet row) :=
      labelsAt_eq (fun i hi => Frame.lt_of_mem_schema (.inr hi)) row .empty
    refine ⟨m₂, ?_, hm₂⟩
    rw [writeRows, hlabels]
    dsimp only
    rw [hwrite]
    exact hrest

end Pivot

/-- Spreading a long series replaces its fields by that of the distinct times, which keeps its
name, and one for each of the series that its rows form. -/
theorem Frame.pivot_eq_written {f : Frame} {times : List Instant} (h : f.IsLong times)
    {time : Field} (htime : f.fields[f.schema.timeIndex]? = some time) (policy : FillPolicy) :
    ∃ m, Pivot.Written f times times.length m ∧
      f.pivot f.schema policy = .ok { f with
        fields := .ofColumn time.name (Pivot.timeColumn (Pivot.distinct times)) ::
          m.entries.map (Pivot.seriesField policy) } := by
  obtain ⟨m, hwrite, hm⟩ := Pivot.writeRows_written h (List.drop_zero (l := Pivot.slotsFrom 0 times))
    (Nat.zero_le _) (Pivot.written_empty f times)
  refine ⟨m, hm, ?_⟩
  unfold Frame.pivot
  rw [if_neg (fun hne => hne h.shape), times_eq_ok_iff.mpr h.time]
  simp only [timesAscend_iff.mpr h.ascend, Bool.not_true, Bool.false_eq_true, if_false, hwrite,
    Pivot.fieldAt_of_getElem? htime]

theorem Frame.pivot_eq {f : Frame} {times : List Instant} (h : f.IsLong times)
    (policy : FillPolicy) :
    ∃ (wide : Frame) (name : String) (m : Pivot.SeriesMap),
      f.pivot f.schema policy = .ok wide ∧ Pivot.Written f times times.length m ∧
        wide.fields = .ofColumn name (Pivot.timeColumn (Pivot.distinct times)) ::
          m.entries.map (Pivot.seriesField policy) := by
  obtain ⟨time, htime, -⟩ := Option.map_eq_some_iff.mp h.time
  obtain ⟨m, hm, hpivot⟩ := pivot_eq_written h htime policy
  exact ⟨_, time.name, m, hpivot, hm, rfl⟩

end SeriesQuery
