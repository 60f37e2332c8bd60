import Mathlib.Data.List.Sort
import SeriesQuery.Proofs.Frame.Parts

/-!
# Fields divided between times, values and labels

Everything that is done with a series trusts that its schema divides the fields: one of them holds
the times, and every other one is either a value or a label.  What it is to divide them is said by
`Schema.Divides`, from the kinds of the fields alone.  The schema of a frame does so if there is a
field of instants, and no other schema does (`Frame.schema_divides`).

The division can be made in one pass over the fields, which skips the times, adds every other field
to one of two lists and notes whether it has met a number (`Schema.ofPass`).  What such a pass has
found is at every field what there is to be found among the fields before it (`Found.next_among`).
That carries the pass to the end of the fields (`Found.pass_among`).
-/

namespace SeriesQuery

namespace Schema

/-! ## One pass -/

/-- What a pass over the fields has found. -/
structure Found where
  /-- Whether one of them is numeric. -/
  numeric : Bool
  /-- The fields of values. -/
  values : List Nat
  /-- The fields of labels. -/
  labels : List Nat

namespace Found

/-- Looks at the next field. -/
def next (found : Found) (index : Nat) : Kind → Found
  | .string | .boolean => { found with labels := found.labels ++ [index] }
  | k => { found with
      numeric := found.numeric || k.isNumeric
      values := found.values ++ [index] }

/-- Looks at fields from an index on, apart from the times. -/
def pass (timeIndex : Nat) (found : Found) (index : Nat) : List Kind → Found
  | [] => found
  | k :: kinds =>
    pass timeIndex (if index = timeIndex then found else found.next index k) (index + 1) kinds

def shape (found : Found) : SeriesShape :=
  match found.numeric, found.labels with
  | false, _ => .none
  | true, [] => .wide
  | true, _ :: _ => .long

/-- What there is to be found among fields. -/
def among (timeIndex : Nat) (kinds : List Kind) : Found :=
  ⟨kinds.any Kind.isNumeric, indicesOf (fun k => !isLabelKind k) timeIndex kinds,
    indicesOf isLabelKind timeIndex kinds⟩

end Found

/-- The schema that one pass over the fields finds. -/
def ofPass (kinds : List Kind) : Schema :=
  match kinds.findIdx? (· == .timestamp) with
  | none => ⟨.none, 0, [], []⟩
  | some timeIndex =>
    let found := Found.pass timeIndex ⟨false, [], []⟩ 0 kinds
    ⟨found.shape, timeIndex, found.values, found.labels⟩

theorem indicesOf_append (p : Kind → Bool) (except : Nat) (kinds : List Kind) (k : Kind) :
    indicesOf p except (kinds ++ [k]) = indicesOf p except kinds ++
      if kinds.length ≠ except ∧ p k = true then [kinds.length] else [] := by
  rw [indicesOf, indicesOf, List.zipIdx_append, List.filter_append, List.map_append, Nat.zero_add]
  congr 1
  by_cases hne : kinds.length = except <;> cases hp : p k <;> simp [hne, hp]

namespace Found

/-- The times change nothing, and any other field is added where it belongs. -/
theorem next_among {timeIndex : Nat} {kinds : List Kind} {k : Kind}
    (htime : kinds.length = timeIndex → k = .timestamp) :
    (if kinds.length = timeIndex then among timeIndex kinds
      else (among timeIndex kinds).next kinds.length k) = among timeIndex (kinds ++ [k]) := by
  simp only [among, indicesOf_append, List.any_append, List.any_cons, List.any_nil, Bool.or_false]
  by_cases h : kinds.length = timeIndex
  · rw [if_pos h, htime h]
    simp [h, Kind.isNumeric]
  · rw [if_neg h]
    cases k <;> simp [h, next, isLabelKind, Kind.isNumeric]

/-- A pass that has found what there is among the first fields finds what there is among all. -/
theorem pass_among {timeIndex : Nat} {seen kinds : List Kind}
    (htime : (seen ++ kinds)[timeIndex]? = some .timestamp) :
    pass timeIndex (among timeIndex seen) seen.length kinds =
      among timeIndex (seen ++ kinds) := by
  induction kinds generalizing seen with
  | nil => rw [pass, List.append_nil]
  | cons k kinds ih =>
    have hk : seen.length = timeIndex → k = .timestamp := by
      rintro rfl
      rw [List.getElem?_append_right (Nat.le_refl _), Nat.sub_self] at htime
      exact Option.some.inj htime
    rw [List.append_cons] at htime ⊢
    rw [pass, next_among hk, ← ih htime, List.length_append, List.length_singleton]

end Found

theorem ofPass_eq_ofKinds (kinds : List Kind) : ofPass kinds = ofKinds kinds := by
  unfold ofPass ofKinds
  cases hfind : kinds.findIdx? (· == .timestamp) with
  | none => rfl
  | some timeIndex =>
    have hkind : ([] ++ kinds)[timeIndex]? = some .timestamp := kind_of_findIdx? hfind
    have hfound : Found.pass timeIndex ⟨false, [], []⟩ 0 kinds = .among timeIndex kinds :=
      Found.pass_among hkind
    dsimp only
    rw [hfound, Found.shape, Found.among]
    dsimp only
    cases kinds.any Kind.isNumeric with
    | false => rfl
    | true => cases indicesOf isLabelKind timeIndex kinds <;> rfl

/-! ## Every field in one place -/

/-- The indices of a property and those of its negation are all but one of the indices. -/
theorem indicesOf_perm (p : Kind → Bool) (except : Nat) (kinds : List Kind) :
    (indicesOf p except kinds ++ indicesOf (fun k => !p k) except kinds).Perm
      ((List.range kinds.length).filter (· != except)) := by
  have hsplit := List.filter_append_perm (fun e : Kind × Nat => p e.1)
    (kinds.zipIdx.filter fun e => e.2 != except)
  have hindices : (kinds.zipIdx.filter fun e => e.2 != except).map (·.2) =
      (List.range kinds.length).filter (· != except) := by
    rw [List.range_eq_range', ← List.zipIdx_map_snd 0 kinds, List.filter_map]
    rfl
  rw [← hindices, indicesOf, indicesOf, ← List.map_append]
  simpa only [List.filter_filter, Bool.and_comm] using hsplit.map Prod.snd

/-- The schema divides the fields of the frame between times, values and labels. -/
structure Divides (s : Schema) (f : Frame) : Prop where
  /-- The times are the first field of instants. -/
  times : ∃ before time after, f.Parts before time after ∧ s.timeIndex = before.length
  values_ascend : s.valueIndices.Pairwise (· < ·)
  labels_ascend : s.labelIndices.Pairwise (· < ·)
  values_apart : s.timeIndex ∉ s.valueIndices
  labels_apart : s.timeIndex ∉ s.labelIndices
  /-- No label is a value. -/
  apart : s.valueIndices.Disjoint s.labelIndices
  /-- Every field is named, and it is named once. -/
  covers : (s.timeIndex :: (s.valueIndices ++ s.labelIndices)).Perm (List.range f.fields.length)
  /-- The labels are the texts and the truth values. -/
  label_iff : ∀ (i : Nat) (g : Field), f.fields[i]? = some g →
    (i ∈ s.labelIndices ↔ g.kind = .string ∨ g.kind = .boolean)
  none_iff : s.shape = .none ↔ ∀ g ∈ f.fields, g.kind.isNumeric = false
  long_iff : s.shape = .long ↔ (∃ g ∈ f.fields, g.kind.isNumeric = true) ∧
    ∃ g ∈ f.fields, g.kind = .string ∨ g.kind = .boolean
  wide_iff : s.shape = .wide ↔ (∃ g ∈ f.fields, g.kind.isNumeric = true) ∧
    ∀ g ∈ f.fields, ¬ (g.kind = .string ∨ g.kind = .boolean)

theorem isLabelKind_iff {k : Kind} : isLabelKind k = true ↔ k = .string ∨ k = .boolean := by
  cases k <;> simp [isLabelKind]

namespace Divides

variable {f : Frame} {s s' : Schema}

/-- The values are what neither holds the times nor is a label. -/
theorem mem_values_iff (h : s.Divides f) {i : Nat} :
    i ∈ s.valueIndices ↔ i < f.fields.length ∧ i ≠ s.timeIndex ∧ i ∉ s.labelIndices := by
  rw [← List.mem_range, ← h.covers.mem_iff, List.mem_cons, List.mem_append]
  constructor
  · intro hi
    exact ⟨.inr (.inl hi), fun he => h.values_apart (he ▸ hi), h.apart hi⟩
  · rintro ⟨hmem, htime, hlabel⟩
    exact (hmem.resolve_left htime).resolve_right hlabel

theorem mem_labels_iff (h : s.Divides f) {i : Nat} :
    i ∈ s.labelIndices ↔ ∃ g, f.fields[i]? = some g ∧ (g.kind = .string ∨ g.kind = .boolean) := by
  constructor
  · intro hi
    have hmem := List.mem_cons_of_mem s.timeIndex (List.mem_append_right s.valueIndices hi)
    have hlt : i < f.fields.length := List.mem_range.mp (h.covers.mem_iff.mp hmem)
    have hg := List.getElem?_eq_getElem hlt
    exact ⟨_, hg, (h.label_iff i _ hg).mp hi⟩
  · rintro ⟨g, hg, hkind⟩
    exact (h.label_iff i g hg).mpr hkind

/-- There is only one way to divide the fields. -/
theorem unique (h : s.Divides f) (h' : s'.Divides f) : s = s' := by
  have htime : s.timeIndex = s'.timeIndex := by
    obtain ⟨_, _, _, hparts, hs⟩ := h.times
    obtain ⟨_, _, _, hparts', hs'⟩ := h'.times
    rw [hs, hs', ← hparts.timeIndex, ← hparts'.timeIndex]
  have hlabels : s.labelIndices = s'.labelIndices :=
    h.labels_ascend.eq_of_mem_iff h'.labels_ascend fun i => by
      rw [h.mem_labels_iff, h'.mem_labels_iff]
  have hvalues : s.valueIndices = s'.valueIndices :=
    h.values_ascend.eq_of_mem_iff h'.values_ascend fun i => by
      rw [h.mem_values_iff, h'.mem_values_iff, htime, hlabels]
  have hshape : s.shape = s'.shape := by
    cases hs : s.shape with
    | none => exact (h'.none_iff.mpr (h.none_iff.mp hs)).symm
    | long => exact (h'.long_iff.mpr (h.long_iff.mp hs)).symm
    | wide => exact (h'.wide_iff.mpr (h.wide_iff.mp hs)).symm
  obtain ⟨shape, time, values, labels⟩ := s
  cases hshape
  cases htime
  cases hvalues
  cases hlabels
  rfl

end Divides

end Schema

namespace Frame

open Schema

variable {f : Frame}

namespace Parts

variable {before after : List Field} {time : Field}

theorem mem_labelIndices_iff (h : f.Parts before time after) {i : Nat} {g : Field}
    (hg : f.fields[i]? = some g) :
    i ∈ f.schema.labelIndices ↔ g.kind = .string ∨ g.kind = .boolean := by
  rw [h.labelIndices, mem_indicesOf, List.getElem?_map, hg, Option.map_some, ← isLabelKind_iff]
  constructor
  · rintro ⟨k, hk, -, hlabel⟩
    rwa [Option.some.inj hk]
  · intro hlabel
    refine ⟨_, rfl, ?_, hlabel⟩
    -- The times are instants, and so no label.
    rintro rfl
    rw [Option.some.inj (hg.symm.trans h.getElem?_timeIndex), h.time] at hlabel
    cases hlabel

theorem covers (h : f.Parts before time after) :
    (f.schema.timeIndex :: (f.schema.valueIndices ++ f.schema.labelIndices)).Perm
      (List.range f.fields.length) := by
  have hlt : f.schema.timeIndex < f.fields.length :=
    (List.getElem?_eq_some_iff.mp h.getElem?_timeIndex).1
  have herase : (List.range f.fields.length).erase f.schema.timeIndex =
      (List.range f.fields.length).filter (· != f.schema.timeIndex) :=
    List.nodup_range.erase_eq_filter _
  have hothers : (f.schema.valueIndices ++ f.schema.labelIndices).Perm
      ((List.range f.fields.length).erase f.schema.timeIndex) := by
    have hperm := indicesOf_perm isLabelKind f.schema.timeIndex (f.fields.map Field.kind)
    rw [List.length_map, ← herase, ← h.valueIndices, ← h.labelIndices] at hperm
    exact List.perm_append_comm.trans hperm
  exact (hothers.cons _).trans (List.perm_cons_erase (List.mem_range.mpr hlt)).symm

end Parts

/-- The schema of a frame with times divides its fields. -/
theorem Parts.divides {before after : List Field} {time : Field} (h : f.Parts before time after) :
    f.schema.Divides f := by
  obtain ⟨htime, hothers⟩ := List.nodup_cons.mp (h.covers.nodup_iff.mpr List.nodup_range)
  rw [List.mem_append, not_or] at htime
  have hmem : Kind.timestamp ∈ f.fields.map Field.kind :=
    List.mem_map.mpr ⟨time, List.mem_of_getElem? h.getElem?_timeIndex, h.time⟩
  refine ⟨⟨before, time, after, h, h.timeIndex⟩, f.pairwise_valueIndices, ?_, htime.1, htime.2,
    List.disjoint_of_nodup_append hothers, h.covers, fun i g => h.mem_labelIndices_iff, ?_, ?_, ?_⟩
  · rw [h.labelIndices]
    exact pairwise_indicesOf _ _ _
  · rw [← not_iff_not, schema, ← ne_eq, shape_ne_none_iff, and_iff_right hmem]
    simp
  · rw [schema, shape_eq_long_iff, and_iff_right hmem]
    simp [isLabelKind_iff]
  · rw [schema, shape_eq_wide_iff, and_iff_right hmem]
    simp [isLabelKind_iff, ← Bool.not_eq_true]

/-- A frame without times is no series. -/
theorem schema_of_no_times (h : ∀ g ∈ f.fields, g.kind ≠ .timestamp) :
    f.schema = ⟨.none, 0, [], []⟩ := by
  have hfind : (f.fields.map Field.kind).findIdx? (· == .timestamp) = none := by
    rw [List.findIdx?_eq_none_iff]
    intro k hk
    obtain ⟨g, hg, rfl⟩ := List.mem_map.mp hk
    exact beq_eq_false_iff_ne.mpr (h g hg)
  rw [schema, ofKinds, hfind]

/-- The fields are divided by their kinds.  If a frame has a field of instants, its schema names the
first of them as the times and divides the others between values and labels, all in ascending order
and each in one place, and no other schema does so.  A frame without such a field is no series and
has no values and labels.  In either case the schema is what one pass over the kinds of the fields
finds, so frames with the same kinds in the same order have the same schema. -/
theorem schema_divides (f : Frame) :
    ((∃ g ∈ f.fields, g.kind = .timestamp) →
      f.schema.Divides f ∧ ∀ s : Schema, s.Divides f → s = f.schema) ∧
    ((∀ g ∈ f.fields, g.kind ≠ .timestamp) → f.schema = ⟨.none, 0, [], []⟩) ∧
    f.schema = ofPass (f.fields.map Field.kind) ∧
    ∀ f' : Frame, f'.fields.map Field.kind = f.fields.map Field.kind → f'.schema = f.schema := by
  refine ⟨?_, schema_of_no_times, (ofPass_eq_ofKinds _).symm, fun f' h => congrArg ofKinds h⟩
  rintro ⟨time, hmem, hkind⟩
  obtain ⟨before, time, after, hparts⟩ := exists_parts_of_mem hmem hkind
  exact ⟨hparts.divides, fun s hs => hs.unique hparts.divides⟩

/-- Fields of all kinds, two of them instants. -/
def twoInstants : Frame :=
  ⟨"visits", [.ofColumn "open" (.nulls .boolean 2), .ofColumn "arrival" (.nulls .timestamp 2),
    .ofColumn "room" (.nulls .string 2), .ofColumn "guests" (.nulls .integer 2),
    .ofColumn "departure" (.nulls .timestamp 2), .ofColumn "price" (.nulls .float 2)], none⟩

/-- The same kinds under other names, and without rows. -/
def twoInstantsRenamed : Frame :=
  ⟨"trips", twoInstants.fields.map fun g => .ofColumn "" (.empty g.kind), none⟩

/-- Numbers and texts without instants. -/
def noInstants : Frame :=
  ⟨"rooms", [.ofColumn "guests" (.nulls .integer 1), .ofColumn "room" (.nulls .string 1)], none⟩

theorem schema_divides_twoInstants :
    (∃ g ∈ twoInstants.fields, g.kind = .timestamp) ∧ twoInstants.schema.Divides twoInstants ∧
      twoInstants.schema = ⟨.long, 1, [3, 4, 5], [0, 2]⟩ ∧
      (∀ s : Schema, s.Divides twoInstants → s = ⟨.long, 1, [3, 4, 5], [0, 2]⟩) ∧
      (∀ g ∈ noInstants.fields, g.kind ≠ .timestamp) ∧ noInstants.schema = ⟨.none, 0, [], []⟩ ∧
      twoInstantsRenamed.schema = ⟨.long, 1, [3, 4, 5], [0, 2]⟩ := by
  obtain ⟨htimes, -, -, hkinds⟩ := schema_divides twoInstants
  obtain ⟨-, hnone, -⟩ := schema_divides noInstants
  have hmem : ∃ g ∈ twoInstants.fields, g.kind = .timestamp :=
    ⟨.ofColumn "arrival" (.nulls .timestamp 2), by simp [twoInstants], rfl⟩
  have hno : ∀ g ∈ noInstants.fields, g.kind ≠ .timestamp := by decide
  have hschema : twoInstants.schema = ⟨.long, 1, [3, 4, 5], [0, 2]⟩ := rfl
  have hsame : twoInstantsRenamed.fields.map Field.kind = twoInstants.fields.map Field.kind := rfl
  obtain ⟨hdivides, honly⟩ := htimes hmem
  exact ⟨hmem, hdivides, hschema, hschema ▸ honly, hno, hnone hno,
    (hkinds _ hsame).trans hschema⟩

end Frame

end SeriesQuery
