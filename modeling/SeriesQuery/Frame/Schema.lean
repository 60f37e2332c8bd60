import SeriesQuery.Frame.Basic

/-!
# Frames as time series

Whether the fields of a frame can be read as time series follows from their
kinds alone.  The first field of instants holds the times.  Of the other fields,
texts and truth values are labels, and all others are values.  Without a field of
times or a numeric value there is no series.  With labels the series is long: its
rows belong to different series, told apart by the labels.  Without labels it is
wide: every value field is a series.

The fields other than the times are divided between labels and values, by their
kinds (`mem_indicesOf`).
-/

namespace SeriesQuery

/-- How the rows of a frame form series. -/
inductive SeriesShape where
  /-- They do not. -/
  | none
  /-- Every row belongs to the series its labels name. -/
  | long
  /-- Every value field is a series. -/
  | wide
deriving DecidableEq

/-- The shape of a frame and the parts its fields play. -/
structure Schema where
  /-- The shape. -/
  shape : SeriesShape
  /-- The field of times, 0 if there is none. -/
  timeIndex : Nat
  /-- The fields of values. -/
  valueIndices : List Nat
  /-- The fields of labels. -/
  labelIndices : List Nat
deriving DecidableEq

namespace Schema

/-- Whether fields of a kind are labels. -/
def isLabelKind : Kind → Bool
  | .string => true
  | .boolean => true
  | _ => false

/-- The indices of the kinds that have a property, apart from one index. -/
def indicesOf (p : Kind → Bool) (except : Nat) (kinds : List Kind) : List Nat :=
  (kinds.zipIdx.filter fun e => e.2 != except && p e.1).map (·.2)

/-- The schema of fields of the given kinds. -/
def ofKinds (kinds : List Kind) : Schema :=
  match kinds.findIdx? (· == .timestamp) with
  | none => ⟨.none, 0, [], []⟩
  | some timeIndex =>
    let labels := indicesOf isLabelKind timeIndex kinds
    let shape : SeriesShape :=
      if kinds.any Kind.isNumeric then if labels = [] then .wide else .long else .none
    ⟨shape, timeIndex, indicesOf (fun k => !isLabelKind k) timeIndex kinds, labels⟩

/-- The field of times holds instants. -/
theorem kind_of_findIdx? {kinds : List Kind} {timeIndex : Nat}
    (h : kinds.findIdx? (· == .timestamp) = some timeIndex) :
    kinds[timeIndex]? = some .timestamp := by
  obtain ⟨hlt, htime, -⟩ := List.findIdx?_eq_some_iff_getElem.mp h
  rw [List.getElem?_eq_getElem hlt, beq_iff_eq.mp htime]

theorem mem_indicesOf {p : Kind → Bool} {except i : Nat} {kinds : List Kind} :
    i ∈ indicesOf p except kinds ↔ ∃ k, kinds[i]? = some k ∧ i ≠ except ∧ p k = true := by
  simp [indicesOf, List.mem_zipIdx_iff_getElem?]

theorem lt_of_mem_indicesOf {p : Kind → Bool} {except i : Nat} {kinds : List Kind}
    (h : i ∈ indicesOf p except kinds) : i < kinds.length := by
  obtain ⟨k, hk, -⟩ := mem_indicesOf.mp h
  exact (List.getElem?_eq_some_iff.mp hk).1

/-- Indices are listed in ascending order. -/
theorem pairwise_indicesOf (p : Kind → Bool) (except : Nat) (kinds : List Kind) :
    (indicesOf p except kinds).Pairwise (· < ·) := by
  have hall : (kinds.zipIdx.map (·.2)).Pairwise (· < ·) := by
    rw [List.zipIdx_map_snd]
    exact List.pairwise_lt_range'
  exact List.pairwise_map.mpr ((List.pairwise_map.mp hall).filter _)

/-- The fields of values and of labels are among the fields. -/
theorem lt_of_mem_ofKinds {kinds : List Kind} {i : Nat}
    (h : i ∈ (ofKinds kinds).valueIndices ∨ i ∈ (ofKinds kinds).labelIndices) :
    i < kinds.length := by
  unfold ofKinds at h
  cases hfind : kinds.findIdx? (· == .timestamp) with
  | none =>
    rw [hfind] at h
    exact h.elim (fun h => (nomatch h)) fun h => (nomatch h)
  | some timeIndex =>
    rw [hfind] at h
    dsimp only at h
    exact h.elim (fun h => lt_of_mem_indicesOf h) fun h => lt_of_mem_indicesOf h

/-- A series has a value field of numbers. -/
theorem exists_numeric_valueIndex {kinds : List Kind} (h : (ofKinds kinds).shape ≠ .none) :
    ∃ i ∈ (ofKinds kinds).valueIndices, ∃ k, kinds[i]? = some k ∧ k.isNumeric = true := by
  unfold ofKinds at h ⊢
  split at h
  next => exact absurd rfl h
  next timeIndex hfind =>
    dsimp only at h ⊢
    split at h
    next hany =>
      obtain ⟨k, hk, hnumeric⟩ := List.any_eq_true.mp hany
      obtain ⟨i, hi⟩ := List.getElem?_of_mem hk
      refine ⟨i, mem_indicesOf.mpr ⟨k, hi, ?_, ?_⟩, k, hi, hnumeric⟩
      · rintro rfl
        cases (kind_of_findIdx? hfind).symm.trans hi
        cases hnumeric
      · cases k <;> simp [Kind.isNumeric, isLabelKind] at hnumeric ⊢
    next => exact absurd rfl h

/-- A long frame has a value field, since it has a field of numbers. -/
theorem exists_valueIndex {kinds : List Kind} (h : (ofKinds kinds).shape = .long) :
    ∃ i, i ∈ (ofKinds kinds).valueIndices := by
  obtain ⟨i, hi, -⟩ := exists_numeric_valueIndex (h ▸ nofun : (ofKinds kinds).shape ≠ .none)
  exact ⟨i, hi⟩

/-- A value field is of no kind of labels. -/
theorem kind_of_mem_valueIndices {kinds : List Kind} {i : Nat}
    (h : i ∈ (ofKinds kinds).valueIndices) : ∃ k, kinds[i]? = some k ∧ isLabelKind k = false := by
  unfold ofKinds at h
  split at h
  next => cases h
  next =>
    dsimp only at h
    obtain ⟨k, hk, -, hnot⟩ := mem_indicesOf.mp h
    exact ⟨k, hk, by simpa using hnot⟩

theorem timeIndex_ofKinds_cons (kinds : List Kind) :
    (ofKinds (.timestamp :: kinds)).timeIndex = 0 := by
  simp [ofKinds, List.findIdx?_cons]

end Schema

def Frame.schema (f : Frame) : Schema := Schema.ofKinds (f.fields.map Field.kind)

theorem Frame.timeIndex_of_cons {f : Frame} {time : Field} {fields : List Field}
    (h : f.fields = time :: fields) (htime : time.kind = .timestamp) : f.schema.timeIndex = 0 := by
  rw [schema, h, List.map_cons, htime]
  exact Schema.timeIndex_ofKinds_cons _

/-- The schema of a frame names fields that the frame has. -/
theorem Frame.lt_of_mem_schema {f : Frame} {i : Nat}
    (h : i ∈ f.schema.valueIndices ∨ i ∈ f.schema.labelIndices) : i < f.fields.length := by
  have hlt := Schema.lt_of_mem_ofKinds h
  rwa [List.length_map] at hlt

theorem Frame.pairwise_valueIndices (f : Frame) : f.schema.valueIndices.Pairwise (· < ·) := by
  rw [schema, Schema.ofKinds]
  split
  · exact List.Pairwise.nil
  · dsimp only
    exact Schema.pairwise_indicesOf _ _ _

/-- The tag of a frame that answers a query.  A frame that was asked for as a
series is tagged as one unless it has rows that form none. -/
def FrameType.of (format : DataFormat) (f : Frame) : FrameType :=
  match format with
  | .table => .table
  | .timeseries => if f.rowCount ≠ 0 ∧ f.schema.shape = .none then .table else .timeseriesWide

end SeriesQuery
