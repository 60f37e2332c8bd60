import Mathlib.Data.Finset.Prod
import Mathlib.Data.Finset.Card
import SeriesQuery.Proofs.Frame.Writes

/-!
# Series apart from each other

A series is told from the others by a name and a label set.  So two values of a long frame
are spread into the same field exactly if their columns have the same name and their rows
the same label set (`Frame.pivot_places`).  With value columns of one name, or label
columns of one name whose last texts agree, these are not only the values of one column in
rows of the same texts: the field is shared, and where two of its values have the same
time the later one is all that is left.

`Frame.KeepsApart` says that no field is shared.  It holds exactly if the names tell the value
columns apart and the label sets the texts, and then there are as many fields as value
columns and tuples of texts.
-/

namespace SeriesQuery

/-- The cell of a row with its kind. -/
def Column.typedCell (c : Column) (row : Nat) : (k : Kind) × Option k.Cell :=
  ⟨c.kind, c.cells[row]?⟩

/-- A slot that has a cell keeps it in the column. -/
theorem SeriesCells.Has.typedCell {s : SeriesCells} {slot row : Nat} {c : Column}
    (h : s.Has slot c row) (hrow : row < c.length) (policy : FillPolicy) :
    (s.toColumn policy).typedCell slot = c.typedCell row := by
  obtain ⟨k, slots⟩ := s
  obtain ⟨kind, cells⟩ := c
  obtain ⟨rfl, hslot⟩ := Sigma.mk.inj h
  have hcell : cells[row]? = some (Column.cellAt ⟨k, cells⟩ row) := Column.cellAt_eq hrow
  rw [heq_eq_eq] at hslot
  dsimp only at hslot
  rw [hcell, ← Array.getElem?_toList] at hslot
  have hfilled : (fillSlots k policy none slots.toList).toArray[slot]? = cells[row]? := by
    rw [List.getElem?_toArray, getElem?_fillSlots_of_some hslot, hcell]
  exact congrArg (Sigma.mk k) hfilled

/-- If two functions agree on which elements they tell apart, they have as many values. -/
theorem card_image_eq_of_iff {α β γ : Type} [DecidableEq β] [DecidableEq γ] {s : Finset α}
    {f : α → β} {g : α → γ} (h : ∀ a ∈ s, ∀ b ∈ s, f a = f b ↔ g a = g b) :
    (s.image f).card = (s.image g).card := by
  have hfst : ((s.image fun a => (f a, g a)).image Prod.fst).card =
      (s.image fun a => (f a, g a)).card := by
    refine Finset.card_image_of_injOn ?_
    intro p hp q hq heq
    obtain ⟨a, ha, rfl⟩ := Finset.mem_image.mp hp
    obtain ⟨b, hb, rfl⟩ := Finset.mem_image.mp hq
    exact Prod.ext heq ((h a ha b hb).mp heq)
  have hsnd : ((s.image fun a => (f a, g a)).image Prod.snd).card =
      (s.image fun a => (f a, g a)).card := by
    refine Finset.card_image_of_injOn ?_
    intro p hp q hq heq
    obtain ⟨a, ha, rfl⟩ := Finset.mem_image.mp hp
    obtain ⟨b, hb, rfl⟩ := Finset.mem_image.mp hq
    exact Prod.ext ((h a ha b hb).mpr heq) heq
  rw [Finset.image_image] at hfst hsnd
  exact hfst.trans hsnd.symm

namespace Frame

/-! ## Label texts -/

/-- The texts of the label fields in a row. -/
def labelTexts (f : Frame) (row : Nat) : List String :=
  f.labelFields.map fun g => g.column.labelText row

theorem labelSet_eq (f : Frame) (row : Nat) :
    f.labelSet row = .ofList ((f.labelFields.map Field.name).zip (f.labelTexts row)) := by
  rw [labelSet, labelTexts, List.zip_map']

/-- Label sets tell texts apart if the label fields have different names. -/
theorem labelTexts_eq_of_labelSet {f : Frame} (hnames : (f.labelFields.map Field.name).Nodup)
    {row row' : Nat} (h : f.labelSet row = f.labelSet row') :
    f.labelTexts row = f.labelTexts row' := by
  refine List.map_congr_left ?_
  intro g hg
  have hfind : ∀ r, (f.labelSet r).find? g.name = some (g.column.labelText r) := by
    intro r
    refine SortedMap.find?_foldl_of_mem ?_ (e := (g.name, g.column.labelText r))
      (List.mem_map.mpr ⟨g, hg, rfl⟩) _
    rw [List.map_map]
    exact hnames
  have htext := hfind row
  rw [h, hfind row', Option.some.injEq] at htext
  exact htext.symm

/-! ## The fields that values are spread into -/

open Pivot

/-- At its time a value stands in the series at a place. -/
def Stands (f : Frame) (times : List Instant) (series : List Field) (place i row : Nat) : Prop :=
  ∃ g s slot, f.fields[i]? = some g ∧ series[place]? = some s ∧
    (distinct times)[slot]? = times[row]? ∧ s.column.typedCell slot = g.column.typedCell row

/-- The series into which the values of a frame are spread.  The value of the field with
index `i` in a row goes to the series at `place i row`. -/
structure Places (f : Frame) (times : List Instant) (series : List Field)
    (place : Nat → Nat → Nat) : Prop where
  /-- A series has the name and the kind of a value field and the labels of a row. -/
  field : ∀ i ∈ f.schema.valueIndices, ∀ row < times.length, ∃ g s, f.fields[i]? = some g ∧
    series[place i row]? = some s ∧ s.name = g.name ∧ s.kind = g.kind ∧
      s.labels = f.labelSet row
  /-- There is no series that no value goes to. -/
  only : ∀ n < series.length, ∃ i ∈ f.schema.valueIndices, ∃ row < times.length,
    place i row = n
  /-- A value stands in its series, unless a later one of the same time goes there. -/
  last : ∀ i ∈ f.schema.valueIndices, ∀ row < times.length,
    (∀ j ∈ f.schema.valueIndices, ∀ later < times.length,
      row < later ∨ row = later ∧ i < j → times[later]? = times[row]? →
        place j later ≠ place i row) →
      f.Stands times series (place i row) i row

/-- Values go to the same series exactly if they are values of one field, in rows that have
the same text in every label field. -/
def KeepsApart (f : Frame) (times : List Instant) (place : Nat → Nat → Nat) : Prop :=
  ∀ i ∈ f.schema.valueIndices, ∀ j ∈ f.schema.valueIndices, ∀ row < times.length,
    ∀ row' < times.length,
      place i row = place j row' ↔ i = j ∧ f.labelTexts row = f.labelTexts row'

/-- The name of the field with an index. -/
def nameAt (f : Frame) (i : Nat) : String := ((f.fields[i]?).map Field.name).getD ""

/-- The key of the series that a value is written to. -/
def seriesKey (f : Frame) (i row : Nat) : SeriesKey := ⟨f.nameAt i, f.labelSet row⟩

variable {f : Frame} {times : List Instant}

theorem seriesKey_eq {w : Write} (hw : w ∈ f.writes times) :
    f.seriesKey w.index w.row = w.key := by
  obtain ⟨-, hg, hlabels, -⟩ := mem_writes.mp hw
  rw [seriesKey, nameAt, hg, Write.key, hlabels]
  rfl

theorem places_of_holds {size : Nat} {m : SeriesMap} (h : f.Ordered times)
    (hm : Holds size (f.writes times) m) (policy : FillPolicy) :
    f.Places times (m.entries.map (seriesField policy)) fun i row =>
      m.keys.idxOf (f.seriesKey i row) := by
  have hentry : ∀ key s, m.find? key = some s →
      (m.entries.map (seriesField policy))[m.keys.idxOf key]? =
        some (seriesField policy (key, s)) := by
    intro key s hs
    rw [List.getElem?_map, SortedMap.getElem?_idxOf SeriesKey.lt_irrefl hm.sorted hs]
    rfl
  refine ⟨?_, ?_, ?_⟩
  · intro i hi row hrow
    obtain ⟨w, hw, rfl, rfl⟩ := exists_write hi hrow
    obtain ⟨-, hg, hlabels, -⟩ := mem_writes.mp hw
    obtain ⟨s, hs, hkind⟩ := hm.seen w hw
    rw [seriesKey_eq hw]
    exact ⟨w.field, _, hg, hentry _ s hs, rfl, hkind, hlabels⟩
  · intro n hn
    have hkey : n < m.keys.length := by simpa [SortedMap.keys] using hn
    obtain ⟨s, hs⟩ := SortedMap.mem_keys_iff.mp (List.getElem_mem hkey)
    obtain ⟨-, w, hw, hwkey⟩ := hm.only _ s hs
    refine ⟨w.index, (mem_writes.mp hw).1, w.row, (distinct_slot hw).1, ?_⟩
    rw [seriesKey_eq hw, hwkey]
    exact (SortedMap.nodup_keys SeriesKey.lt_irrefl hm.sorted).idxOf_getElem n hkey
  · intro i hi row hrow hlater
    obtain ⟨w, hw, rfl, rfl⟩ := exists_write hi hrow
    obtain ⟨-, hg, -, -⟩ := mem_writes.mp hw
    have hslot := (distinct_slot hw).2
    have hlast : ∀ w' ∈ f.writes times, w.Before w' → w'.key = w.key → w'.slot ≠ w.slot := by
      intro w' hw' hbefore hkey heq
      obtain ⟨hrow', hslot'⟩ := distinct_slot hw'
      refine hlater w'.index (mem_writes.mp hw').1 w'.row hrow' hbefore ?_ ?_
      · rw [← hslot', heq, hslot]
      · rw [seriesKey_eq hw, seriesKey_eq hw', hkey]
    obtain ⟨s, hs, hhas⟩ := hm.last w hw hlast
    rw [seriesKey_eq hw]
    refine ⟨w.field, _, w.slot, hg, hentry _ s hs, hslot, hhas.typedCell ?_ policy⟩
    rwa [h.aligned w.field (List.mem_of_getElem? hg)]

/-- Values go to the same series exactly if their fields have the same name and their rows
the same label set. -/
theorem pivot_places (h : f.Ordered times) {policy : FillPolicy} {wide : Frame}
    (hpivot : f.pivot f.schema policy = .ok wide) :
    ∃ time series place, wide.fields = time :: series ∧
      time.column = timeColumn (distinct times) ∧ f.Places times series place ∧
      ∀ i ∈ f.schema.valueIndices, ∀ j ∈ f.schema.valueIndices, ∀ row < times.length,
        ∀ row' < times.length, place i row = place j row' ↔
          f.nameAt i = f.nameAt j ∧ f.labelSet row = f.labelSet row' := by
  rcases f.pivot_cases h policy with ⟨wide', name, m, hwide, hm, hfields⟩ | ⟨_, _, _, _, _, _, he⟩
  · rw [hpivot, Except.ok.injEq] at hwide
    subst hwide
    refine ⟨_, _, _, hfields, rfl, places_of_holds h hm policy, ?_⟩
    intro i hi j hj row hrow row' hrow'
    have hmem : f.seriesKey i row ∈ m.keys := by
      obtain ⟨w, hw, rfl, rfl⟩ := exists_write hi hrow
      obtain ⟨s, hs, -⟩ := hm.seen w hw
      rw [seriesKey_eq hw]
      exact SortedMap.mem_keys_iff.mpr ⟨s, hs⟩
    rw [List.idxOf_inj hmem, seriesKey, seriesKey, SeriesKey.mk.injEq]
  · rw [hpivot] at he
    cases he

/-! ## Series that are kept apart -/

theorem map_name_valueFields (f : Frame) :
    f.valueFields.map Field.name = f.schema.valueIndices.map f.nameAt := by
  rw [valueFields, List.map_filterMap, ← List.filterMap_eq_map]
  refine List.filterMap_congr ?_
  intro i hi
  simp [nameAt, List.getElem?_eq_getElem (lt_of_mem_schema (.inl hi))]

/-- What tells the series of a frame apart. -/
structure TellsApart (f : Frame) (times : List Instant) : Prop where
  /-- No two value fields have the same name. -/
  names : (f.valueFields.map Field.name).Nodup
  /-- Rows whose texts differ have different label sets. -/
  labels : ∀ row < times.length, ∀ row' < times.length, f.labelSet row = f.labelSet row' →
    f.labelTexts row = f.labelTexts row'

/-- As soon as there are rows, series are kept apart exactly if something tells them apart. -/
theorem keepsApart_iff (hshape : f.schema.shape = .long) {place : Nat → Nat → Nat}
    (h : ∀ i ∈ f.schema.valueIndices, ∀ j ∈ f.schema.valueIndices, ∀ row < times.length,
      ∀ row' < times.length, place i row = place j row' ↔
        f.nameAt i = f.nameAt j ∧ f.labelSet row = f.labelSet row') :
    f.KeepsApart times place ↔ (times ≠ [] → f.TellsApart times) := by
  have hnodup : (f.valueFields.map Field.name).Nodup ↔ ∀ i ∈ f.schema.valueIndices,
      ∀ j ∈ f.schema.valueIndices, f.nameAt i = f.nameAt j → i = j := by
    rw [map_name_valueFields]
    exact List.nodup_map_iff_inj_on (f.pairwise_valueIndices.imp Nat.ne_of_lt)
  constructor
  · intro hapart hne
    have hrow : 0 < times.length := List.length_pos_of_ne_nil hne
    refine ⟨hnodup.mpr ?_, ?_⟩
    · intro i hi j hj hname
      have hplace := (h i hi j hj 0 hrow 0 hrow).mpr ⟨hname, rfl⟩
      exact ((hapart i hi j hj 0 hrow 0 hrow).mp hplace).1
    · intro row hrow row' hrow' hlabels
      obtain ⟨i, hi⟩ := Schema.exists_valueIndex hshape
      have hplace := (h i hi i hi row hrow row' hrow').mpr ⟨rfl, hlabels⟩
      exact ((hapart i hi i hi row hrow row' hrow').mp hplace).2
  · intro htells i hi j hj row hrow row' hrow'
    obtain ⟨hnames, hlabels⟩ := htells (List.ne_nil_of_length_pos (Nat.zero_lt_of_lt hrow))
    rw [h i hi j hj row hrow row' hrow']
    constructor
    · rintro ⟨hname, hset⟩
      exact ⟨hnodup.mp hnames i hi j hj hname, hlabels row hrow row' hrow' hset⟩
    · rintro ⟨rfl, htexts⟩
      exact ⟨rfl, by rw [labelSet_eq, labelSet_eq, htexts]⟩

/-- Series that are kept apart are as many as there are value fields and tuples of label
texts. -/
theorem Places.length_eq {series : List Field} {place : Nat → Nat → Nat}
    (h : f.Places times series place) (hapart : f.KeepsApart times place) :
    series.length = f.schema.valueIndices.length *
      ((Finset.range times.length).image f.labelTexts).card := by
  -- Over all fields and rows the places are the indices of the series, and they are told
  -- apart as the pairs of a field and texts are.
  have hrange : (f.schema.valueIndices.toFinset ×ˢ Finset.range times.length).image
      (fun p => place p.1 p.2) = Finset.range series.length := by
    ext n
    simp only [Finset.mem_image, Finset.mem_product, List.mem_toFinset, Finset.mem_range,
      Prod.exists]
    constructor
    · rintro ⟨i, row, ⟨hi, hrow⟩, rfl⟩
      obtain ⟨-, s, -, hs, -⟩ := h.field i hi row hrow
      exact (List.getElem?_eq_some_iff.mp hs).1
    · intro hn
      obtain ⟨i, hi, row, hrow, rfl⟩ := h.only n hn
      exact ⟨i, row, ⟨hi, hrow⟩, rfl⟩
  have hpairs : (f.schema.valueIndices.toFinset ×ˢ Finset.range times.length).image
      (fun p => (p.1, f.labelTexts p.2)) =
        f.schema.valueIndices.toFinset ×ˢ (Finset.range times.length).image f.labelTexts := by
    ext ⟨i, texts⟩
    simp only [Finset.mem_image, Finset.mem_product, List.mem_toFinset, Finset.mem_range,
      Prod.exists, Prod.mk.injEq]
    constructor
    · rintro ⟨i, row, ⟨hi, hrow⟩, rfl, rfl⟩
      exact ⟨hi, row, hrow, rfl⟩
    · rintro ⟨hi, row, hrow, rfl⟩
      exact ⟨i, row, ⟨hi, hrow⟩, rfl, rfl⟩
  have hcard := card_image_eq_of_iff (s := f.schema.valueIndices.toFinset ×ˢ
    Finset.range times.length) (f := fun p => place p.1 p.2)
    (g := fun p => (p.1, f.labelTexts p.2)) ?_
  · rw [hrange, hpairs, Finset.card_range, Finset.card_product,
      List.toFinset_card_of_nodup (f.pairwise_valueIndices.imp Nat.ne_of_lt)] at hcard
    exact hcard
  · rintro ⟨i, row⟩ hp ⟨j, row'⟩ hq
    simp only [Finset.mem_product, List.mem_toFinset, Finset.mem_range] at hp hq
    rw [Prod.mk.injEq]
    exact hapart i hp.1 j hq.1 row hp.2 row' hq.2

/-- In series that are kept apart a value stands until a later row of the same time and the
same texts. -/
theorem Places.stands {series : List Field} {place : Nat → Nat → Nat}
    (h : f.Places times series place) (hapart : f.KeepsApart times place) {i row : Nat}
    (hi : i ∈ f.schema.valueIndices) (hrow : row < times.length)
    (hlast : ∀ later < times.length, row < later → times[later]? = times[row]? →
      f.labelTexts later ≠ f.labelTexts row) :
    f.Stands times series (place i row) i row := by
  refine h.last i hi row hrow ?_
  intro j hj later hlater hbehind htime hplace
  obtain ⟨rfl, htexts⟩ := (hapart j hj i hi later hlater row hrow).mp hplace
  rcases hbehind with hlt | ⟨-, hlt⟩
  · exact hlast later hlater hlt htime htexts
  · exact Nat.lt_irrefl _ hlt

/-- The series of a long frame that is spread.  Values go to the same one exactly if their
fields have the same name and their rows the same label set.  These are values of one field
in rows of the same texts only if names and label sets tell series apart; then there is
a series for every value field and tuple of texts, and a field takes no value from
another one. -/
theorem pivot_keepsApart (f : Frame) (times : List Instant) (policy : FillPolicy) (wide : Frame)
    (h : f.Ordered times) (hpivot : f.pivot f.schema policy = .ok wide) :
    ∃ time series place, wide.fields = time :: series ∧
      time.column = timeColumn (distinct times) ∧ f.Places times series place ∧
      (∀ i ∈ f.schema.valueIndices, ∀ j ∈ f.schema.valueIndices, ∀ row < times.length,
        ∀ row' < times.length, place i row = place j row' ↔
          f.nameAt i = f.nameAt j ∧ f.labelSet row = f.labelSet row') ∧
      (f.KeepsApart times place ↔ (times ≠ [] → f.TellsApart times)) ∧
      (f.KeepsApart times place →
        series.length = f.schema.valueIndices.length *
            ((Finset.range times.length).image f.labelTexts).card ∧
          ∀ i ∈ f.schema.valueIndices, ∀ row < times.length,
            (∀ later < times.length, row < later → times[later]? = times[row]? →
              f.labelTexts later ≠ f.labelTexts row) →
              f.Stands times series (place i row) i row) := by
  obtain ⟨time, series, place, hfields, htime, hplaces, hplace⟩ := pivot_places h hpivot
  refine ⟨time, series, place, hfields, htime, hplaces, hplace, keepsApart_iff h.shape hplace, ?_⟩
  intro hapart
  exact ⟨hplaces.length_eq hapart, fun i hi row hrow => hplaces.stands hapart hi hrow⟩

/-- Two hosts whose label sets are written the same. -/
def alike : Frame :=
  ⟨"alike", [.ofColumn "time" (timeColumn [.near 0 0, .near 0 0]),
    .ofColumn "host" ⟨.string, #[some "a, region=b", some "a"]⟩,
    .ofColumn "region" ⟨.string, #[some "c", some "b, region=c"]⟩,
    .ofColumn "value" ⟨.integer, #[some 1, some 2]⟩], none⟩

theorem pivot_keepsApart_alike : ∃ (wide : Frame) (time : Field) (series : List Field),
    alike.pivot alike.schema .null = .ok wide ∧ wide.fields = time :: series ∧
      series.length = 2 ∧ (alike.labelSet 0).text = (alike.labelSet 1).text := by
  obtain ⟨wide, hwide⟩ : ∃ wide, alike.pivot alike.schema .null = .ok wide := ⟨_, rfl⟩
  obtain ⟨time, series, place, hfields, -, -, -, hapart, hcount⟩ :=
    pivot_keepsApart alike [.near 0 0, .near 0 0] .null wide
      ⟨rfl, rfl, by decide, by decide⟩ hwide
  refine ⟨wide, time, series, hwide, hfields, ?_, by decide +kernel⟩
  rw [(hcount (hapart.mpr fun _ => ⟨by decide, ?_⟩)).1]
  · decide +kernel
  · exact fun _ _ _ _ => labelTexts_eq_of_labelSet (by decide)

/-- A host with two columns of one name. -/
def doubled : Frame :=
  ⟨"doubled", [.ofColumn "time" (timeColumn [.near 0 0]),
    .ofColumn "host" ⟨.string, #[some "a"]⟩,
    .ofColumn "value" ⟨.integer, #[some 1]⟩, .ofColumn "value" ⟨.integer, #[some 2]⟩], none⟩

/-- Two columns of one name are spread into one field, where the second has taken the place
of the first. -/
theorem pivot_merges_names : doubled.Ordered [.near 0 0] ∧
    ∃ (wide : Frame) (time s : Field), doubled.pivot doubled.schema .null = .ok wide ∧
      wide.fields = [time, s] ∧ s.column = ⟨.integer, #[some 2]⟩ ∧
      ∀ place, doubled.Places [.near 0 0] [s] place →
        ¬ doubled.KeepsApart [.near 0 0] place := by
  refine ⟨⟨rfl, rfl, by decide, by decide⟩, _, _, _, rfl, rfl, rfl, ?_⟩
  intro place hplaces hapart
  have hcount : 1 = 2 * ((Finset.range 1).image doubled.labelTexts).card :=
    hplaces.length_eq hapart
  omega

end Frame

end SeriesQuery
