import SeriesQuery.Proofs.Frame.Shape

/-!
# The parts of a series

The schema of a frame names its fields by their places.  Here they are named by what they are:
a series is a field of times with fields before and behind it (`Frame.Parts`), of which those of
label kinds are the labels and the others the values.  So a field that is put in or moved
changes the labels and the values as it changes the fields, wherever it stands.
-/

namespace SeriesQuery

/-- The fields that places name are those of the kinds in question, without the one place that
is left out. -/
theorem Schema.filterMap_indicesOf (p : Kind → Bool) (except : Nat) (fields : List Field) :
    (indicesOf p except (fields.map Field.kind)).filterMap (fields[·]?) =
      (fields.zipIdx.filter fun e => e.2 != except && p e.1.kind).map (·.1) := by
  rw [indicesOf, List.zipIdx_map, List.filter_map, List.map_map, List.filterMap_map,
    ← List.filterMap_eq_map]
  refine List.filterMap_congr fun e he => ?_
  obtain ⟨g, i⟩ := e
  exact List.mem_zipIdx_iff_getElem?.mp (List.mem_filter.mp he).1

/-- The first field of instants, and the fields before and behind it. -/
structure Frame.Parts (f : Frame) (before : List Field) (time : Field) (after : List Field) :
    Prop where
  fields : f.fields = before ++ time :: after
  time : time.kind = .timestamp
  first : ∀ g ∈ before, g.kind ≠ .timestamp

namespace Frame

theorem exists_parts_of_mem {f : Frame} {time : Field} (hmem : time ∈ f.fields)
    (hkind : time.kind = .timestamp) : ∃ before time after, f.Parts before time after := by
  obtain ⟨g, before, after, hbefore, hg, hfields, -⟩ :=
    List.exists_of_eraseP (p := fun g : Field => g.kind == .timestamp) hmem (beq_iff_eq.mpr hkind)
  exact ⟨before, g, after, hfields, beq_iff_eq.mp hg,
    fun g hg he => hbefore g hg (beq_iff_eq.mpr he)⟩

theorem exists_parts {f : Frame} (h : f.schema.shape ≠ .none) :
    ∃ before time after, f.Parts before time after := by
  obtain ⟨htime, -⟩ := Schema.shape_ne_none_iff.mp h
  obtain ⟨time, hmem, hkind⟩ := List.mem_map.mp htime
  exact exists_parts_of_mem hmem hkind

namespace Parts

variable {f : Frame} {before after : List Field} {time : Field}

theorem findIdx?_kind (h : f.Parts before time after) :
    (f.fields.map Field.kind).findIdx? (· == .timestamp) = some before.length := by
  have hbefore : (before.map Field.kind).findIdx? (· == .timestamp) = none := by
    rw [List.findIdx?_eq_none_iff]
    intro k hk
    obtain ⟨g, hg, rfl⟩ := List.mem_map.mp hk
    exact beq_eq_false_iff_ne.mpr (h.first g hg)
  rw [h.fields, List.map_append, List.map_cons, List.findIdx?_append, hbefore, h.time,
    List.findIdx?_cons]
  simp

theorem timeIndex (h : f.Parts before time after) : f.schema.timeIndex = before.length := by
  rw [schema, Schema.ofKinds, h.findIdx?_kind]

theorem valueIndices (h : f.Parts before time after) :
    f.schema.valueIndices = Schema.indicesOf (fun k => !Schema.isLabelKind k) f.schema.timeIndex
      (f.fields.map Field.kind) := by
  rw [schema, Schema.ofKinds, h.findIdx?_kind]

theorem labelIndices (h : f.Parts before time after) :
    f.schema.labelIndices = Schema.indicesOf Schema.isLabelKind f.schema.timeIndex
      (f.fields.map Field.kind) := by
  rw [schema, Schema.ofKinds, h.findIdx?_kind]

theorem getElem?_timeIndex (h : f.Parts before time after) :
    f.fields[f.schema.timeIndex]? = some time := by
  rw [h.timeIndex, h.fields]
  simp

/-- The fields of a property are found before and behind the times. -/
theorem filterMap_indicesOf (h : f.Parts before time after) (p : Kind → Bool) :
    (Schema.indicesOf p before.length (f.fields.map Field.kind)).filterMap (f.fields[·]?) =
      (before ++ after).filter fun g => p g.kind := by
  have hfilter : ∀ (fields : List Field) (start : Nat),
      (∀ e ∈ fields.zipIdx start, e.2 ≠ before.length) →
      ((fields.zipIdx start).filter fun e => e.2 != before.length && p e.1.kind).map (·.1) =
        fields.filter fun g => p g.kind := by
    intro fields start hne
    have hcond : (fields.zipIdx start).filter (fun e => e.2 != before.length && p e.1.kind) =
        (fields.zipIdx start).filter ((fun g => p g.kind) ∘ Prod.fst) :=
      List.filter_congr fun e he => by simp [hne e he]
    rw [hcond, ← List.filter_map, List.zipIdx_map_fst]
  rw [Schema.filterMap_indicesOf, h.fields, List.zipIdx_append, List.filter_append,
    List.map_append, List.zipIdx_cons, List.filter_cons]
  rw [hfilter before 0, List.filter_append]
  · simp only [Nat.zero_add, bne_self_eq_false, Bool.false_and, Bool.false_eq_true, if_false]
    rw [hfilter after]
    intro e he
    have hle := List.le_snd_of_mem_zipIdx he
    omega
  · intro e he
    have hlt := List.snd_lt_of_mem_zipIdx he
    omega

theorem valueFields (h : f.Parts before time after) :
    f.valueFields = (before ++ after).filter fun g => !Schema.isLabelKind g.kind := by
  rw [← h.filterMap_indicesOf fun k => !Schema.isLabelKind k, Frame.valueFields, h.valueIndices,
    h.timeIndex]

theorem labelFields (h : f.Parts before time after) :
    f.labelFields = (before ++ after).filter fun g => Schema.isLabelKind g.kind := by
  rw [← h.filterMap_indicesOf Schema.isLabelKind, Frame.labelFields, h.labelIndices, h.timeIndex]

/-- A field of another kind that is put in somewhere stands before or behind the times. -/
theorem insert {f' : Frame} (h : f.Parts before time after) {left right : List Field}
    {label : Field} (hfields : f.fields = left ++ right)
    (hfields' : f'.fields = left ++ label :: right) (hkind : label.kind ≠ .timestamp) :
    ∃ before' after' others others', f'.Parts before' time after' ∧
      before ++ after = others ++ others' ∧ before' ++ after' = others ++ label :: others' := by
  rw [h.fields] at hfields
  rcases List.append_eq_append_iff.mp hfields with ⟨rest, rfl, hrest⟩ | ⟨rest, rfl, rfl⟩
  · cases rest with
    | nil =>
      obtain rfl : time :: after = right := hrest
      refine ⟨before ++ [label], after, before, after, ⟨?_, h.time, ?_⟩, rfl, by simp⟩
      · rw [hfields']
        simp
      · intro g hg
        rcases List.mem_append.mp hg with hg | hg
        · exact h.first g hg
        · rwa [List.mem_singleton.mp hg]
    | cons g rest =>
      cases hrest
      refine ⟨before, rest ++ label :: right, before ++ rest, right, ⟨?_, h.time, h.first⟩,
        by simp, by simp⟩
      rw [hfields']
      simp
  · refine ⟨left ++ label :: rest, after, left, rest ++ after, ⟨?_, h.time, ?_⟩, by simp, by simp⟩
    · rw [hfields']
      simp
    · intro g hg
      rcases List.mem_append.mp hg with hg | hg
      · exact h.first g (List.mem_append_left _ hg)
      · rcases List.mem_cons.mp hg with rfl | hg
        · exact hkind
        · exact h.first g (List.mem_append_right _ hg)

end Parts

end Frame

/-! ## The parts on the grid -/

namespace Fill

/-- The field of times on buckets. -/
def timeOnGrid (buckets : List Instant) (time : Field) : Field :=
  time.withCells (buckets.map time.column.kind.instantCell)

/-- Another field on buckets. -/
def onGrid (policy : FillPolicy) (times buckets : List Instant) (g : Field) : Field :=
  g.withCells (SeriesCells.fillSlots g.column.kind policy none
    (buckets.map fun bucket => (firstRow? times bucket).map g.column.cellAt))

theorem mapIdx_onGrid {fields : List Field} (start : Nat) {timeIndex : Nat}
    (hne : ∀ i < fields.length, i + start ≠ timeIndex) (policy : FillPolicy)
    (times buckets : List Instant) :
    (fields.mapIdx fun i g =>
        g.withCells (bucketCells timeIndex policy times (i + start) g none buckets)) =
      fields.map (onGrid policy times buckets) := by
  refine List.ext_getElem? fun i => ?_
  rw [List.getElem?_mapIdx, List.getElem?_map]
  cases hg : fields[i]? with
  | none => rfl
  | some g =>
    have hi := hne i (List.getElem?_eq_some_iff.mp hg).1
    rw [Option.map_some, Option.map_some, bucketCells_of_ne hi, onGrid]

/-- Filling puts every part on the grid, where it stands. -/
theorem filled_of_parts {f : Frame} {before after : List Field} {time : Field}
    (h : f.Parts before time after) {times : List Instant}
    (htimes : time.column = Pivot.timeColumn times) (policy : FillPolicy)
    (buckets : List Instant) :
    (filled f f.schema.timeIndex policy times buckets).fields =
      before.map (onGrid policy times buckets) ++ timeOnGrid buckets time ::
        after.map (onGrid policy times buckets) := by
  rw [filled, columns, h.fields, h.timeIndex]
  dsimp only
  rw [List.mapIdx_append, List.mapIdx_cons]
  congr 1
  · exact mapIdx_onGrid 0 (fun i hi => by omega) policy times buckets
  · congr 1
    · rw [timeOnGrid, Nat.zero_add, bucketCells_time htimes]
    · have hne : ∀ i < after.length, i + (before.length + 1) ≠ before.length :=
        fun i _ => by omega
      rw [← mapIdx_onGrid (before.length + 1) hne]
      simp only [Nat.add_assoc, Nat.add_comm 1]

end Fill

end SeriesQuery
