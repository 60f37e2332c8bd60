import SeriesQuery.Proofs.Frame.Parts
import SeriesQuery.Proofs.Frame.RowOrder

/-!
# Long series in another order

The order of rows is dealt with before (`Frame.pivot_pick`).  The order of columns enters
through the values and the labels of a row (`Frame.Shuffles`).  Labels of different names make
the same label set in any order, and values of different names go to different series, so what
stands in the map after all rows (`Pivot.Written`) stands there for either order.  That
determines the map.

A table without rows is not spread.  Its frame has the columns as they are, so it shows their
order.
-/

namespace SeriesQuery

namespace SortedMap

variable {κ ν : Type} [LT κ] [DecidableLT κ] [DecidableEq κ]

theorem sorted_ofList (trans : ∀ {a b c : κ}, a < b → b < c → a < c)
    (total : ∀ {a b : κ}, a ≠ b → ¬ a < b → b < a) (es : List (κ × ν)) : (ofList es).Sorted := by
  have hfold : ∀ m : SortedMap κ ν, m.Sorted →
      (es.foldl (fun m e => m.insert e.1 e.2) m).Sorted := by
    induction es with
    | nil => exact fun m hm => hm
    | cons e es ih => exact fun m hm => ih _ (sorted_insert trans total hm e.1 e.2)
  exact hfold empty List.Pairwise.nil

/-- Entries of different keys make the same map in any order. -/
theorem ofList_perm (irrefl : ∀ a : κ, ¬ a < a) (trans : ∀ {a b c : κ}, a < b → b < c → a < c)
    (total : ∀ {a b : κ}, a ≠ b → ¬ a < b → b < a) {es es' : List (κ × ν)} (h : es.Perm es')
    (hnodup : (es.map (·.1)).Nodup) : ofList es = ofList es' := by
  refine ext_of_find? irrefl trans (sorted_ofList trans total es) (sorted_ofList trans total es')
    fun k => ?_
  have hkeys : (es.map (·.1)).Perm (es'.map (·.1)) := h.map _
  by_cases hk : k ∈ es.map (·.1)
  · obtain ⟨e, he, rfl⟩ := List.mem_map.mp hk
    rw [ofList, find?_foldl_of_mem hnodup he, ofList,
      find?_foldl_of_mem (hkeys.nodup_iff.mp hnodup) (h.mem_iff.mp he)]
  · rw [ofList, find?_foldl_of_not_mem hk, ofList,
      find?_foldl_of_not_mem fun hk' => hk (hkeys.mem_iff.mpr hk')]

end SortedMap

theorem Labels.ofList_perm {es es' : List (String × String)} (h : es.Perm es')
    (hnodup : (es.map (·.1)).Nodup) : (SortedMap.ofList es : Labels) = .ofList es' := by
  refine SortedMap.ofList_perm String.lt_irrefl String.lt_trans ?_ h hnodup
  intro a b hne hnot
  exact Decidable.byContradiction fun hnot' => hne (String.le_antisymm hnot' hnot)

/-! ## What determines the series -/

namespace Pivot

variable {f f' : Frame} {times : List Instant} {count : Nat} {m m' : SeriesMap}

/-- There is one map for the series of some rows. -/
theorem Written.unique (h : Written f times count m) (h' : Written f times count m') : m = m' := by
  have hfind : ∀ {m m' : SeriesMap}, Written f times count m → Written f times count m' →
      ∀ {key s}, m.find? key = some s → m'.find? key = some s := by
    intro m m' h h' key s hs
    obtain ⟨g, hg, row, hrow, rfl⟩ := h.only key s hs
    rw [h.seen g hg row hrow] at hs
    rw [h'.seen g hg row hrow, hs]
  refine SortedMap.ext_of_find? SeriesKey.lt_irrefl SeriesKey.lt_trans h.sorted h'.sorted
    fun key => Option.ext fun s => ⟨hfind h h', hfind h' h⟩

theorem seriesAfter_congr (hlabels : f.labelSet = f'.labelSet) (labels : Labels) (c : Column) :
    seriesAfter f times labels c count = seriesAfter f' times labels c count := by
  have hrows : f.isRowOf times labels = f'.isRowOf times labels := by
    funext p row
    rw [Frame.isRowOf, Frame.isRowOf, hlabels]
  unfold seriesAfter slotsAfter Frame.lastCell
  rw [hrows]

/-- The series depend on the label sets of the rows and on what value fields there are. -/
theorem Written.congr (h : Written f times count m) (hlabels : f.labelSet = f'.labelSet)
    (hvalues : ∀ g, g ∈ f.valueFields ↔ g ∈ f'.valueFields) : Written f' times count m := by
  refine ⟨h.sorted, fun g hg row hrow => ?_, fun key s hs => ?_⟩
  · rw [← hlabels, h.seen g ((hvalues g).mpr hg) row hrow, seriesAfter_congr hlabels]
  · obtain ⟨g, hg, row, hrow, hkey⟩ := h.only key s hs
    exact ⟨g, (hvalues g).mp hg, row, hrow, by rw [← hlabels, hkey]⟩

end Pivot

/-! ## Fields in another order -/

namespace Frame

/-- The same fields in another order, of which the first one of instants is the same. -/
structure Shuffles (f f' : Frame) : Prop where
  name : f'.name = f.name
  note : f'.note = f.note
  perm : f.fields.Perm f'.fields
  time : f.fields.find? (fun g => g.kind == .timestamp) =
    f'.fields.find? fun g => g.kind == .timestamp

namespace Shuffles

variable {f f' : Frame} {times : List Instant}

theorem shape (h : f.Shuffles f') (hlong : f.schema.shape = .long) : f'.schema.shape = .long := by
  have hkinds : ∀ k, k ∈ f'.fields.map Field.kind ↔ k ∈ f.fields.map Field.kind := fun _ =>
    (h.perm.map Field.kind).symm.mem_iff
  obtain ⟨htime, ⟨k, hk, hnumeric⟩, l, hl, hlabel⟩ := Schema.shape_eq_long_iff.mp hlong
  exact Schema.shape_eq_long_iff.mpr ⟨(hkinds _).mpr htime, ⟨k, (hkinds k).mpr hk, hnumeric⟩, l,
    (hkinds l).mpr hl, hlabel⟩

theorem getElem?_timeIndex (h : f.Shuffles f') (hlong : f.schema.shape = .long) :
    f'.fields[f'.schema.timeIndex]? = f.fields[f.schema.timeIndex]? := by
  have hshape : f.schema.shape ≠ .none := hlong ▸ nofun
  have hshape' : f'.schema.shape ≠ .none := h.shape hlong ▸ nofun
  rw [← find?_time hshape, ← find?_time hshape', h.time]

/-- The fields other than the times are the same in another order, and so are the values and the
labels among them. -/
theorem perm_fields (h : f.Shuffles f') (hlong : f.schema.shape = .long) :
    f.valueFields.Perm f'.valueFields ∧ f.labelFields.Perm f'.labelFields := by
  have hshape : f.schema.shape ≠ .none := hlong ▸ nofun
  have hshape' : f'.schema.shape ≠ .none := h.shape hlong ▸ nofun
  obtain ⟨before, time, after, hparts⟩ := exists_parts hshape
  obtain ⟨before', time', after', hparts'⟩ := exists_parts hshape'
  have htime := h.getElem?_timeIndex hlong
  rw [hparts.getElem?_timeIndex, hparts'.getElem?_timeIndex, Option.some.injEq] at htime
  subst htime
  have hothers : (before ++ after).Perm (before' ++ after') := by
    have hperm := h.perm
    rw [hparts.fields, hparts'.fields] at hperm
    exact ((List.perm_middle.symm.trans hperm).trans List.perm_middle).cons_inv
  rw [hparts.valueFields, hparts'.valueFields, hparts.labelFields, hparts'.labelFields]
  exact ⟨hothers.filter _, hothers.filter _⟩

theorem labelSet_eq (h : f.Shuffles f') (hlong : f.schema.shape = .long)
    (hnames : (f.labelFields.map Field.name).Nodup) : f.labelSet = f'.labelSet := by
  funext row
  refine Labels.ofList_perm ((h.perm_fields hlong).2.map _) ?_
  rw [List.map_map]
  exact hnames

theorem ordered (h : f.Shuffles f') (hf : f.Ordered times) : f'.Ordered times where
  shape := h.shape hf.shape
  time := by rw [h.getElem?_timeIndex hf.shape, hf.time]
  aligned g hg := hf.aligned g (h.perm.mem_iff.mpr hg)
  ascend := hf.ascend

end Shuffles

theorem Ordered.isLong {f : Frame} {times : List Instant} (h : f.Ordered times)
    (hnames : (f.valueFields.map Field.name).Nodup) : f.IsLong times :=
  ⟨h.shape, h.time, h.aligned, h.ascend, hnames⟩

theorem nodup_names {f : Frame} (hlong : f.schema.shape = .long)
    (hnames : (f.fields.map Field.name).Nodup) :
    (f.valueFields.map Field.name).Nodup ∧ (f.labelFields.map Field.name).Nodup := by
  have hshape : f.schema.shape ≠ .none := hlong ▸ nofun
  obtain ⟨before, time, after, hparts⟩ := exists_parts hshape
  have hothers : (before ++ after).Sublist f.fields := by
    rw [hparts.fields]
    exact (List.Sublist.refl before).append (List.sublist_cons_self time after)
  rw [hparts.valueFields, hparts.labelFields]
  exact ⟨hnames.sublist ((List.filter_sublist.trans hothers).map _),
    hnames.sublist ((List.filter_sublist.trans hothers).map _)⟩

/-- Spreading does not depend on the order of fields of different names. -/
theorem pivot_of_shuffles {f f' : Frame} {times : List Instant} (h : f.Shuffles f')
    (hf : f.Ordered times) (hnames : (f.fields.map Field.name).Nodup) (policy : FillPolicy) :
    f'.pivot f'.schema policy = f.pivot f.schema policy := by
  obtain ⟨hvalues, hlabels⟩ := nodup_names hf.shape hnames
  have hlong := hf.isLong hvalues
  have hlong' := (h.ordered hf).isLong (((h.perm_fields hf.shape).1.map _).nodup_iff.mp hvalues)
  obtain ⟨time, htime, -⟩ := Option.map_eq_some_iff.mp hf.time
  obtain ⟨m, hm, hpivot⟩ := pivot_eq_written hlong htime policy
  obtain ⟨m', hm', hpivot'⟩ :=
    pivot_eq_written hlong' ((h.getElem?_timeIndex hf.shape).trans htime) policy
  have hcongr := hm.congr (h.labelSet_eq hf.shape hlabels) fun _ =>
    (h.perm_fields hf.shape).1.mem_iff
  rw [hpivot, hpivot', hcongr.unique hm', h.name, h.note]

end Frame

/-! ## Assembling -/

namespace Table

open SeriesQuery.Frame

/-- The table with some rows, in the order of these. -/
def pick (rows : List Nat) (t : Table) : Table :=
  ⟨t.columns.map fun c => ⟨c.name, c.column.pick rows⟩⟩

theorem toFrame_pick (rows : List Nat) (t : Table) (name : String) :
    (t.pick rows).toFrame name = (t.toFrame name).pick rows := by
  rw [toFrame, toFrame, pick, Frame.pick, List.map_map, List.map_map]
  rfl

variable {t : Table} {times : List Instant}

/-- A table whose columns are those of a long one without rows has none. -/
theorem rowCount_of_perm {t' : Table} (h : (t.toFrame responseName).Ordered [])
    (hperm : t.columns.Perm t'.columns) : t'.rowCount = 0 := by
  have haligned : ∀ c ∈ t'.columns, c.column.length = 0 := fun c hc =>
    h.aligned (.ofColumn c.name c.column) (List.mem_map.mpr ⟨c, hperm.mem_iff.mpr hc, rfl⟩)
  rw [rowCount]
  cases hcolumns : t'.columns with
  | nil => rfl
  | cons c columns => exact haligned c (hcolumns ▸ List.mem_cons_self)

/-- A table that is long has its rows spread if it has any. -/
theorem assemble_of_ordered (h : (t.toFrame responseName).Ordered times) (hne : times ≠ [])
    (gaps : GapFill) :
    t.assemble .timeseries gaps =
      ((t.toFrame responseName).pivot (t.toFrame responseName).schema
        (gaps.policy.getD .null)).bind fun wide => wide.fillGaps gaps := by
  refine assemble_of_spread ?_ h.shape gaps
  rw [rowCount_of_times h.time h.aligned]
  exact Nat.ne_of_gt (List.length_pos_of_ne_nil hne)

/-- There is nothing to pick from no rows. -/
theorem pick_of_noRows (h : (t.toFrame responseName).Ordered []) : t.pick [] = t := by
  have hcolumns : ∀ c ∈ t.columns, (⟨c.name, c.column.pick []⟩ : TableColumn) = c := by
    intro c hc
    have hlength := h.aligned (.ofColumn c.name c.column) (List.mem_map.mpr ⟨c, hc, rfl⟩)
    obtain ⟨name, kind, ⟨cells⟩⟩ := c
    obtain rfl : cells = [] := List.length_eq_zero_iff.mp hlength
    rfl
  exact congrArg Table.mk ((List.map_congr_left hcolumns).trans (List.map_id _))

theorem assemble_pick (h : (t.toFrame responseName).Ordered times)
    (hdiffer : (t.toFrame responseName).RowsDiffer times) {rows : List Nat}
    (hrows : Reorders rows times) (gaps : GapFill) :
    (t.pick rows).assemble .timeseries gaps = t.assemble .timeseries gaps := by
  by_cases hne : times = []
  · subst hne
    obtain rfl : rows = [] := List.length_eq_zero_iff.mp hrows.length_eq
    rw [pick_of_noRows h]
  · have h' : ((t.pick rows).toFrame responseName).Ordered times := by
      rw [toFrame_pick]
      exact h.pick hrows
    rw [assemble_of_ordered h hne, assemble_of_ordered h' hne, toFrame_pick,
      pivot_pick h hne hrows hdiffer]

/-- The first column of instants. -/
def timeColumn? (t : Table) : Option TableColumn :=
  t.columns.find? fun c => c.column.kind == .timestamp

theorem shuffles_toFrame {t' : Table} (hperm : t.columns.Perm t'.columns)
    (htime : t.timeColumn? = t'.timeColumn?) (name : String) :
    (t.toFrame name).Shuffles (t'.toFrame name) := by
  refine ⟨rfl, rfl, hperm.map _, ?_⟩
  rw [toFrame, toFrame, List.find?_map, List.find?_map]
  exact congrArg (Option.map _) htime

theorem assemble_of_perm {t' : Table} (h : (t.toFrame responseName).Ordered times)
    (hne : times ≠ []) (hnames : (t.columns.map TableColumn.name).Nodup)
    (hperm : t.columns.Perm t'.columns) (htime : t.timeColumn? = t'.timeColumn?)
    (gaps : GapFill) : t'.assemble .timeseries gaps = t.assemble .timeseries gaps := by
  have hshuffles := shuffles_toFrame hperm htime responseName
  have hnames' : ((t.toFrame responseName).fields.map Field.name).Nodup := by
    rw [toFrame, List.map_map]
    exact hnames
  rw [assemble_of_ordered h hne, assemble_of_ordered (hshuffles.ordered h) hne,
    pivot_of_shuffles hshuffles h hnames']

/-- The frame of a long table, assembled as time series, does not depend on the order of rows of
the same time, if no two of these have one label set.  If the table has rows and columns of
different names, it does not depend on the order of the columns either, as long as the same one
gives the times.  Without rows the columns stay in the order they have. -/
theorem assemble_reordered (t : Table) (times : List Instant) (gaps : GapFill)
    (h : (t.toFrame responseName).Ordered times) :
    ((t.toFrame responseName).RowsDiffer times → ∀ rows, Reorders rows times →
      (t.pick rows).assemble .timeseries gaps = t.assemble .timeseries gaps) ∧
    (times ≠ [] → (t.columns.map TableColumn.name).Nodup → ∀ t' : Table,
      t.columns.Perm t'.columns → t.timeColumn? = t'.timeColumn? →
        t'.assemble .timeseries gaps = t.assemble .timeseries gaps) ∧
    (times = [] → ∀ t' : Table, t.columns.Perm t'.columns →
      t'.assemble .timeseries gaps = .ok (t'.toFrame responseName)) := by
  refine ⟨fun hdiffer rows hrows => assemble_pick h hdiffer hrows gaps,
    fun hne hnames t' hperm htime => assemble_of_perm h hne hnames hperm htime gaps, ?_⟩
  rintro rfl t' hperm
  exact assemble_of_plain (.inl (rowCount_of_perm h hperm)) gaps

/-- The values of two hosts at one time, and of one of them a minute later. -/
def twoHosts : Table :=
  ⟨[⟨"host", ⟨.string, #[some "b", some "a", some "a"]⟩⟩,
    ⟨"time", Pivot.timeColumn [.near 0 0, .near 0 0, .near 60 0]⟩,
    ⟨"value", ⟨.integer, #[some 1, some 2, none]⟩⟩]⟩

/-- The minutes of the two times and one more. -/
def untilSecondMinute : GapFill :=
  ⟨⟨.near 0 0, .near 120 0⟩, Span.ofSeconds 60, some .previous⟩

/-- The hosts change places in the first minute, and the columns all do. -/
theorem assemble_reordered_twoHosts :
    (∃ g, twoHosts.assemble .timeseries untilSecondMinute = .ok g ∧
      g.fields.map Field.length = [3, 3, 3] ∧
      (twoHosts.pick [1, 0, 2]).assemble .timeseries untilSecondMinute = .ok g ∧
      assemble ⟨twoHosts.columns.reverse⟩ .timeseries untilSecondMinute = .ok g) ∧
    twoHosts.pick [1, 0, 2] ≠ twoHosts := by
  have hordered : (twoHosts.toFrame responseName).Ordered [.near 0 0, .near 0 0, .near 60 0] :=
    ⟨by decide, rfl, by decide, by decide⟩
  have hdiffer : (twoHosts.toFrame responseName).RowsDiffer
      [.near 0 0, .near 0 0, .near 60 0] := by
    have hrows : ∀ row < 3, ∀ row' < 3, (twoHosts.toFrame responseName).labelSet row =
        (twoHosts.toFrame responseName).labelSet row' →
        [Instant.near 0 0, .near 0 0, .near 60 0][row]? =
          [Instant.near 0 0, .near 0 0, .near 60 0][row']? → row = row' := by
      decide
    exact fun row row' hrow hrow' htime hlabels => hrows row hrow row' hrow' hlabels htime
  have hreorders : Reorders [1, 0, 2] [.near 0 0, .near 0 0, .near 60 0] := by
    refine ⟨by decide, fun place row hrow => ?_⟩
    match place, hrow with
    | 0, rfl => rfl
    | 1, rfl => rfl
    | 2, rfl => rfl
  obtain ⟨hrows, hcolumns, -⟩ := assemble_reordered twoHosts _ untilSecondMinute hordered
  obtain ⟨g, hg⟩ : ∃ g, twoHosts.assemble .timeseries untilSecondMinute = .ok g := ⟨_, rfl⟩
  have hpick := hrows hdiffer [1, 0, 2] hreorders
  have hreverse := hcolumns (List.cons_ne_nil _ _) (by decide) ⟨twoHosts.columns.reverse⟩
    (List.reverse_perm _).symm rfl
  refine ⟨⟨g, hg, ?_, hpick.trans hg, hreverse.trans hg⟩, by decide⟩
  cases hg
  rfl

/-- Hosts and values without rows. -/
def noHosts : Table :=
  ⟨[⟨"time", .empty .timestamp⟩, ⟨"host", .empty .string⟩, ⟨"value", .empty .float⟩]⟩

/-- The same with the values before the hosts. -/
def noHostsSwapped : Table :=
  ⟨[⟨"time", .empty .timestamp⟩, ⟨"value", .empty .float⟩, ⟨"host", .empty .string⟩]⟩

/-- Without rows the order of the columns shows. -/
theorem assemble_keeps_column_order :
    (noHosts.toFrame responseName).Ordered [] ∧ (noHosts.toFrame responseName).RowsDiffer [] ∧
      (noHosts.columns.map TableColumn.name).Nodup ∧
      noHosts.columns.Perm noHostsSwapped.columns ∧
      noHosts.timeColumn? = noHostsSwapped.timeColumn? ∧
      ∀ gaps, noHostsSwapped.assemble .timeseries gaps ≠ noHosts.assemble .timeseries gaps := by
  refine ⟨⟨by decide, rfl, by decide, List.Pairwise.nil⟩, fun _ _ hrow => (nomatch hrow),
    by decide, by decide, by decide, fun gaps he => ?_⟩
  rw [assemble_of_plain (.inl rfl), assemble_of_plain (.inl rfl), Except.ok.injEq] at he
  exact absurd he (by decide)

end Table

end SeriesQuery
