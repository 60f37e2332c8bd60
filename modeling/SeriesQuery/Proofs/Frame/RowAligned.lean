import SeriesQuery.Proofs.Column.Bounds
import SeriesQuery.Proofs.Frame.Shape

/-!
# Frames stay row-aligned

A frame is row-aligned if all its fields have as many cells as it has rows.  It stays so along
every sequence of steps: dropping the rows, appending a row of a row-aligned frame with the same
kinds, spreading and filling, with any arguments (`steps_keep_aligned`).

A row is appended field by field, and in general an error leaves the fields before it one cell
longer.  Between row-aligned frames of the same kinds this cannot be: a row that the first field of
the source has, all of them have (`pushRowFrom_cases`).  Spreading and filling make new fields,
whose lengths are those of one list of times (`aligned_of_pivot`, `aligned_of_fill`), and they
leave the frame as it was if they fail.
-/

namespace SeriesQuery

namespace Frame

/-- All fields have as many cells as the frame has rows. -/
def Aligned (f : Frame) : Prop := ∀ g ∈ f.fields, g.length = f.rowCount

instance (f : Frame) : Decidable f.Aligned :=
  inferInstanceAs (Decidable (∀ g ∈ f.fields, g.length = f.rowCount))

theorem aligned_of_length {f : Frame} {n : Nat} (h : ∀ g ∈ f.fields, g.length = n) : f.Aligned := by
  intro g hg
  rw [h g hg, rowCount]
  cases hfields : f.fields with
  | nil =>
    rw [hfields] at hg
    cases hg
  | cons g' fields => exact (h g' (hfields ▸ List.mem_cons_self)).symm

def kinds (f : Frame) : List Kind := f.fields.map Field.kind

/-! ## Appending a row -/

/-- A row that all fields of the source have is appended to every field. -/
theorem appendRow_of_lt {fields source : List Field}
    (hkinds : source.map Field.kind = fields.map Field.kind) {row : Nat}
    (hrow : ∀ g ∈ source, row < g.length) :
    ∃ fields', appendRow row fields source = (fields', none) ∧
      fields'.map Field.length = fields.map fun g => g.length + 1 := by
  induction fields generalizing source with
  | nil => exact ⟨[], rfl, rfl⟩
  | cons g fields ih =>
    cases source with
    | nil => cases hkinds
    | cons g' source =>
      obtain ⟨hkind, hkinds⟩ := List.cons.inj hkinds
      rcases Column.pushFrom_cases hkind row with ⟨-, column, hpush, -, hlength⟩ | ⟨hle, -⟩
      · obtain ⟨fields', hrest, hlengths⟩ :=
          ih hkinds fun h hh => hrow h (List.mem_cons_of_mem _ hh)
        refine ⟨{ g with column } :: fields', by rw [appendRow, hpush, hrest], ?_⟩
        rw [List.map_cons, List.map_cons, hlengths]
        exact congrArg (· :: _) hlength
      · exact absurd (hrow g' List.mem_cons_self) (Nat.not_lt.mpr hle)

/-- Between row-aligned frames of the same kinds a row is appended to all fields or to none. -/
theorem pushRowFrom_cases {f source : Frame} (hsource : source.Aligned)
    (hkinds : source.kinds = f.kinds) (row : Nat) :
    ((f.fields = [] ∨ row < source.rowCount) ∧ (f.pushRowFrom source row).2 = none ∧
        (f.pushRowFrom source row).1.fields.map Field.length =
          f.fields.map fun g => g.length + 1) ∨
      (f.fields ≠ [] ∧ source.rowCount ≤ row) ∧
        f.pushRowFrom source row = (f, some (.rowOutOfBounds row source.rowCount)) := by
  obtain ⟨name, fields, note⟩ := f
  obtain ⟨name', fields', note'⟩ := source
  unfold kinds at hkinds
  unfold pushRowFrom
  dsimp only at hkinds ⊢
  cases fields with
  | nil => exact .inl ⟨.inl rfl, rfl, rfl⟩
  | cons g fields =>
    cases fields' with
    | nil => cases hkinds
    | cons g' fields' =>
      have hcount : (⟨name', g' :: fields', note'⟩ : Frame).rowCount = g'.length := rfl
      by_cases hrow : row < g'.length
      · left
        have hall : ∀ h ∈ g' :: fields', row < h.length := fun h hh => by
          rw [hsource h hh]
          exact hrow
        obtain ⟨_, happend, hlengths⟩ := appendRow_of_lt hkinds hall
        rw [happend]
        exact ⟨.inr hrow, rfl, hlengths⟩
      · right
        have hkind : g'.kind = g.kind := (List.cons.inj hkinds).1
        rcases Column.pushFrom_cases hkind row with ⟨hlt, -⟩ | ⟨hle, hpush⟩
        · exact absurd hlt hrow
        · rw [appendRow, hpush]
          exact ⟨⟨List.cons_ne_nil _ _, hle⟩, rfl⟩

theorem aligned_of_pushRowFrom {f source : Frame} (hf : f.Aligned) (hsource : source.Aligned)
    (hkinds : source.kinds = f.kinds) (row : Nat) : (f.pushRowFrom source row).1.Aligned := by
  rcases pushRowFrom_cases hsource hkinds row with ⟨-, -, hlengths⟩ | ⟨-, hsame⟩
  · refine aligned_of_length (n := f.rowCount + 1) fun g hg => ?_
    obtain ⟨g', hg', hlength⟩ := List.mem_map.mp (hlengths ▸ List.mem_map_of_mem hg)
    rw [← hlength, hf g' hg']
  · rw [hsame]
    exact hf

/-! ## Spreading and filling -/

theorem aligned_emptyCopy (f : Frame) : f.emptyCopy.Aligned := by
  refine aligned_of_length (n := 0) fun g hg => ?_
  obtain ⟨g', -, rfl⟩ := List.mem_map.mp hg
  rfl

/-- The fields of a spread frame have a cell for every distinct time. -/
theorem aligned_of_pivot {f wide : Frame} (hf : f.Aligned) {policy : FillPolicy}
    (h : f.pivot f.schema policy = .ok wide) : wide.Aligned := by
  by_cases hlong : f.schema.shape = .long
  · have hshape : f.schema.shape ≠ .none := by
      rw [hlong]
      decide
    have htimes : f.HasTimes f.schema.timeIndex f.rowCount :=
      ⟨by rw [← List.getElem?_map]; exact Schema.getElem?_timeIndex hshape, hf⟩
    rcases pivot_cases_of_long hlong htimes policy with ⟨e, he, -⟩ | ⟨times, hordered, -⟩
    · cases h.symm.trans he
    rcases pivot_cases hordered policy with
      ⟨wide', name, m, hpivot, hm, hwide⟩ | ⟨_, _, _, _, _, _, he⟩
    · cases h.symm.trans hpivot
      exact aligned_of_length (hasTimes_of_holds hm hwide).aligned
    · cases h.symm.trans he
  · rw [pivot, if_pos hlong] at h
    cases h

/-- The fields of a filled frame have a cell for every bucket. -/
theorem aligned_of_fill {f g : Frame} {timeIndex : Nat} {range : TimeRange} {interval : Span}
    {policy : FillPolicy} (h : f.fill timeIndex range interval policy = .ok g) : g.Aligned := by
  obtain ⟨times, buckets, -, -, rfl⟩ := filled_of_fill h
  exact aligned_of_length fun g hg => aligned_filled hg

/-! ## Steps -/

/-- What can be done with a frame in a step. -/
inductive Operation where
  /-- To drop the rows. -/
  | clear
  | pushRow (source : Frame) (row : Nat)
  /-- To spread by the schema of the frame itself. -/
  | pivot (policy : FillPolicy)
  | fill (timeIndex : Nat) (range : TimeRange) (interval : Span) (policy : FillPolicy)

/-- The frame that takes the place of another one, unless there is an error. -/
def replacedBy (f : Frame) : Except ConversionError Frame → Frame × Option ConversionError
  | .ok g => (g, none)
  | .error e => (f, some e)

/-- The frame that a step leaves, and the error if it has failed. -/
def perform (f : Frame) : Operation → Frame × Option ConversionError
  | .clear => (f.emptyCopy, none)
  | .pushRow source row => f.pushRowFrom source row
  | .pivot policy => f.replacedBy (f.pivot f.schema policy)
  | .fill timeIndex range interval policy =>
    f.replacedBy (f.fill timeIndex range interval policy)

/-- Rows are taken from row-aligned frames of the same kinds only. -/
def Admits (f : Frame) : Operation → Prop
  | .pushRow source _ => source.Aligned ∧ source.kinds = f.kinds
  | _ => True

/-- The frame after some steps, each of which starts with what the one before has left. -/
def afterAll (f : Frame) : List Operation → Frame
  | [] => f
  | step :: steps => afterAll (f.perform step).1 steps

/-- Every step is one that the frame it starts with admits. -/
def AdmitsAll (f : Frame) : List Operation → Prop
  | [] => True
  | step :: steps => f.Admits step ∧ AdmitsAll (f.perform step).1 steps

theorem aligned_replacedBy {f : Frame} (hf : f.Aligned) {result : Except ConversionError Frame}
    (h : ∀ g, result = .ok g → g.Aligned) : (f.replacedBy result).1.Aligned := by
  cases result with
  | ok g => exact h g rfl
  | error e => exact hf

theorem aligned_perform {f : Frame} (hf : f.Aligned) {step : Operation}
    (hadmits : f.Admits step) : (f.perform step).1.Aligned := by
  cases step with
  | clear => exact f.aligned_emptyCopy
  | pushRow source row => exact aligned_of_pushRowFrom hf hadmits.1 hadmits.2 row
  | pivot policy => exact aligned_replacedBy hf fun g => aligned_of_pivot hf
  | fill timeIndex range interval policy => exact aligned_replacedBy hf fun g => aligned_of_fill

theorem aligned_afterAll {f : Frame} (hf : f.Aligned) {steps : List Operation}
    (hall : f.AdmitsAll steps) : (f.afterAll steps).Aligned := by
  induction steps generalizing f with
  | nil => exact hf
  | cons step steps ih => exact ih (aligned_perform hf hall.1) hall.2

theorem AdmitsAll.take {f : Frame} {steps : List Operation} (hall : f.AdmitsAll steps)
    (count : Nat) : f.AdmitsAll (steps.take count) := by
  induction steps generalizing f count with
  | nil =>
    rw [List.take_nil]
    exact hall
  | cons step steps ih =>
    cases count with
    | zero => exact trivial
    | succ count => exact ⟨hall.1, ih hall.2 count⟩

/-- A row-aligned frame is row-aligned after every step of a sequence, whether the step succeeds
or fails.  A row that cannot be appended to what a sequence has left leaves it as it is. -/
theorem steps_keep_aligned {f : Frame} (hf : f.Aligned) {steps : List Operation}
    (hall : f.AdmitsAll steps) :
    (∀ count, (f.afterAll (steps.take count)).Aligned) ∧
      ∀ source row e, (f.afterAll steps).Admits (.pushRow source row) →
        ((f.afterAll steps).perform (.pushRow source row)).2 = some e →
          ((f.afterAll steps).perform (.pushRow source row)).1 = f.afterAll steps ∧
            e = .rowOutOfBounds row source.rowCount := by
  refine ⟨fun count => aligned_afterAll hf (hall.take count), ?_⟩
  rintro source row e ⟨hsource, hkinds⟩ hfails
  rcases pushRowFrom_cases hsource hkinds row with ⟨-, hnone, -⟩ | ⟨-, hsame⟩
  · cases hnone.symm.trans hfails
  · refine ⟨congrArg Prod.fst hsame, ?_⟩
    cases (congrArg Prod.snd hsame).symm.trans hfails
    rfl

/-- The loads of two hosts, a minute apart. -/
def hostLoads : Frame :=
  ⟨"loads", [.ofColumn "time" (Pivot.timeColumn [.near 0 0, .near 60 0]),
    .ofColumn "host" ⟨.string, #[some "a", some "b"]⟩,
    .ofColumn "load" ⟨.integer, #[some 1, none]⟩], none⟩

/-- To append a row that there is and one that there is not, to spread the rows, to fill them once
by the field of times and once by another one, and to drop them. -/
def hostSteps : List Frame.Operation :=
  [.pushRow hostLoads 1, .pushRow hostLoads 2, .pivot .previous,
    .fill 0 ⟨.near 0 0, .near 120 0⟩ (Span.ofSeconds 60) .null,
    .fill 1 ⟨.near 0 0, .near 120 0⟩ (Span.ofSeconds 60) .null, .clear]

/-- The fourth step fills three minutes and the fifth fails, and a row that is not there changes
nothing. -/
theorem steps_keep_aligned_hostLoads : hostLoads.Aligned ∧ hostLoads.AdmitsAll hostSteps ∧
    (∀ count, (hostLoads.afterAll (hostSteps.take count)).Aligned) ∧
      (hostLoads.afterAll (hostSteps.take 5)).rowCount = 3 ∧
      (hostLoads.perform (.pushRow hostLoads 2)).1 = hostLoads := by
  have hloads : hostLoads.Aligned := by decide
  have hall : hostLoads.AdmitsAll hostSteps :=
    ⟨⟨hloads, rfl⟩, ⟨hloads, rfl⟩, trivial, trivial, trivial, trivial, trivial⟩
  refine ⟨hloads, hall, (steps_keep_aligned hloads hall).1, by decide +kernel, ?_⟩
  exact ((@steps_keep_aligned _ hloads [] trivial).2 _ _ _ ⟨hloads, rfl⟩ rfl).1

end Frame

end SeriesQuery
