import Mathlib.Data.List.Destutter
import SeriesQuery.Proofs.Frame.Long

/-!
# Slots sought from row to row

The slot of a row is the place of its time among the distinct times.  It can be sought: from the
slot of the row before on, the distinct times are tried one after the other until the time of the
row is met (`seek`).  Nothing in such a search looks whether the times have ended, so it is to be
shown that it never runs past the last one, where there is no answer.

Both facts rest on the order.  The distinct times ascend strictly, so a time stands at only one
place, with exactly the earlier ones before it (`place_eq_countEarlier`).  And the times of the rows
ascend, so that place is never before the slot from which the search goes on.  This is the invariant
that is carried from row to row (`seekAll_eq`, `writeRowsSeeking_eq`).

So seeking gives the slots by which a series is spread, and spreading with sought slots always has
the answer that spreading has (`Frame.pivotSeeking_eq`).
-/

namespace SeriesQuery

namespace Pivot

/-! ## Seeking -/

/-- Looks for a time among others, from a slot on.  There is no answer if they end before. -/
def seek (among : List Instant) (time : Instant) (slot : Nat) : Option Nat :=
  if h : slot < among.length then
    if among[slot] = time then some slot else seek among time (slot + 1)
  else none
termination_by among.length - slot

/-- Looks for times one after the other, each from the slot of the one before on. -/
def seekAll (among : List Instant) : (slot : Nat) → (times : List Instant) → Option (List Nat)
  | _, [] => some []
  | slot, time :: times =>
    match seek among time slot with
    | none => none
    | some slot => (seekAll among slot times).map (slot :: ·)

/-- Writes rows, given their times, from the row `row` on.  The slot of each is sought among the
distinct times, from the slot of the row before on. -/
def writeRowsSeeking (fields : List Field) (schema : Schema) (among : List Instant) :
    (row slot : Nat) → (times : List Instant) → SeriesMap →
      Option (Except ConversionError SeriesMap)
  | _, _, [], m => some (.ok m)
  | row, slot, time :: times, m =>
    match seek among time slot with
    | none => none
    | some slot =>
      match labelsAt fields row schema.labelIndices .empty with
      | .error e => some (.error e)
      | .ok labels =>
        match writeRow fields among.length slot row labels schema.valueIndices m with
        | .error e => some (.error e)
        | .ok m => writeRowsSeeking fields schema among (row + 1) slot times m

/-- The number of times earlier than a time. -/
def countEarlier (among : List Instant) (time : Instant) : Nat := among.countP (· < time)

end Pivot

/-- Spreads a long series like `pivot`, with slots that are sought.  There is no answer if a time
is not found. -/
def Frame.pivotSeeking (f : Frame) (schema : Schema) (policy : FillPolicy) :
    Option (Except ConversionError Frame) :=
  if schema.shape ≠ .long then some (.error .notLongSeries)
  else
    match f.times schema.timeIndex with
    | .error e => some (.error e)
    | .ok times =>
      if !Frame.timesAscend times then some (.error .notSortedByTime)
      else
        let distinct := Pivot.distinct times
        match Pivot.writeRowsSeeking f.fields schema distinct 0 0 times .empty with
        | none => none
        | some (.error e) => some (.error e)
        | some (.ok series) =>
          match Pivot.fieldAt f.fields schema.timeIndex with
          | .error e => some (.error e)
          | .ok time =>
            some (.ok { f with
              fields := .ofColumn time.name (Pivot.timeColumn distinct) ::
                series.entries.map (Pivot.seriesField policy) })

namespace Pivot

/-! ## Places among ascending times -/

/-- The distinct times are the times without adjacent repetitions. -/
theorem distinct_eq_destutter (times : List Instant) :
    distinct times = times.destutter (· ≠ ·) := by
  induction times with
  | nil => rfl
  | cons s times ih =>
    cases times with
    | nil => rfl
    | cons t times =>
      rw [List.destutter_cons'] at ih ⊢
      rw [distinct, ih]
      by_cases h : s = t
      · rw [if_pos h, List.destutter'_cons_neg _ (not_not.mpr h), h]
      · rw [if_neg h, List.destutter'_cons_pos _ h]

variable {among : List Instant} {time : Instant}

/-- Of strictly ascending times exactly the earlier ones stand before a time. -/
theorem place_eq_countEarlier (hasc : among.Pairwise (· < ·)) {place : Nat}
    (h : among[place]? = some time) : place = countEarlier among time := by
  unfold countEarlier
  induction among generalizing place with
  | nil => cases h
  | cons first among ih =>
    obtain ⟨hfirst, hasc⟩ := List.pairwise_cons.mp hasc
    cases place with
    | zero =>
      cases h
      refine (List.countP_eq_zero.mpr fun other hother => ?_).symm
      rw [decide_eq_true_eq, not_lt]
      rcases List.mem_cons.mp hother with rfl | hother
      · exact le_refl _
      · exact le_of_lt (hfirst other hother)
    | succ place =>
      rw [List.getElem?_cons_succ] at h
      have hlt : first < time := hfirst time (List.mem_of_getElem? h)
      rw [List.countP_cons, if_pos (decide_eq_true hlt), ← ih hasc h]

theorem countEarlier_mono {time' : Instant} (h : time ≤ time') :
    countEarlier among time ≤ countEarlier among time' := by
  refine List.countP_mono_left fun other _ hother => ?_
  exact decide_eq_true (lt_of_lt_of_le (of_decide_eq_true hother) h)

/-- A search that starts no later than the place of a time ends there. -/
theorem seek_eq (hasc : among.Pairwise (· < ·)) (hmem : time ∈ among) {slot : Nat}
    (hslot : slot ≤ countEarlier among time) :
    seek among time slot = some (countEarlier among time) := by
  obtain ⟨place, hplace⟩ := List.getElem?_of_mem hmem
  have hcount := place_eq_countEarlier hasc hplace
  have hlt : place < among.length := (List.getElem?_eq_some_iff.mp hplace).1
  fun_induction seek among time slot with
  | case1 slot h hfound =>
    have hhere : among[slot]? = some time := List.getElem?_eq_some_iff.mpr ⟨h, hfound⟩
    rw [place_eq_countEarlier hasc hhere]
  | case2 slot h hnot ih =>
    -- The slot is not yet the place, so the next one is not past it.
    have hne : slot ≠ place := by
      rintro rfl
      exact hnot (List.getElem?_eq_some_iff.mp hplace).2
    exact ih (by omega)
  | case3 slot h => omega

/-! ## From row to row -/

/-- The search for ascending times goes on from a slot that is no later than any of their
places. -/
theorem seekAll_eq (hasc : among.Pairwise (· < ·)) {times : List Instant}
    (htimes : times.Pairwise (· ≤ ·)) (hmem : ∀ t ∈ times, t ∈ among) {slot : Nat}
    (hslot : ∀ t ∈ times, slot ≤ countEarlier among t) :
    seekAll among slot times = some (times.map (countEarlier among)) := by
  induction times generalizing slot with
  | nil => rfl
  | cons time times ih =>
    obtain ⟨htime, htimes⟩ := List.pairwise_cons.mp htimes
    obtain ⟨hmem, hmems⟩ := List.forall_mem_cons.mp hmem
    have hnext : ∀ t ∈ times, countEarlier among time ≤ countEarlier among t :=
      fun t ht => countEarlier_mono (htime t ht)
    rw [seekAll, seek_eq hasc hmem (hslot time List.mem_cons_self)]
    dsimp only
    rw [ih htimes hmems hnext]
    rfl

/-- Writing rows with sought slots is writing them with the places of their times. -/
theorem writeRowsSeeking_eq (hasc : among.Pairwise (· < ·)) {times : List Instant}
    (htimes : times.Pairwise (· ≤ ·)) (hmem : ∀ t ∈ times, t ∈ among) {slot : Nat}
    (hslot : ∀ t ∈ times, slot ≤ countEarlier among t) (fields : List Field) (schema : Schema)
    (row : Nat) (m : SeriesMap) :
    writeRowsSeeking fields schema among row slot times m =
      some (writeRows fields schema among.length row (times.map (countEarlier among)) m) := by
  induction times generalizing slot row m with
  | nil => rfl
  | cons time times ih =>
    obtain ⟨htime, htimes⟩ := List.pairwise_cons.mp htimes
    obtain ⟨hmem, hmems⟩ := List.forall_mem_cons.mp hmem
    have hnext : ∀ t ∈ times, countEarlier among time ≤ countEarlier among t :=
      fun t ht => countEarlier_mono (htime t ht)
    rw [writeRowsSeeking, seek_eq hasc hmem (hslot time List.mem_cons_self), List.map_cons,
      writeRows]
    dsimp only
    cases labelsAt fields row schema.labelIndices .empty with
    | error e => rfl
    | ok labels =>
      dsimp only
      cases writeRow fields among.length (countEarlier among time) row labels
        schema.valueIndices m with
      | error e => rfl
      | ok m => exact ih htimes hmems hnext (row + 1) m

/-- The slots of ascending times are their places among the distinct ones. -/
theorem slotsFrom_eq {times : List Instant} (htimes : times.Pairwise (· ≤ ·)) :
    slotsFrom 0 times = times.map (countEarlier (distinct times)) := by
  refine List.ext_getElem? fun row => ?_
  rw [List.getElem?_map]
  cases h : times[row]? with
  | none =>
    rw [Option.map_none, List.getElem?_eq_none_iff, length_slotsFrom]
    exact List.getElem?_eq_none_iff.mp h
  | some time =>
    obtain ⟨place, hslot, hplace⟩ := getElem?_slotsFrom 0 h
    rw [hslot, Nat.zero_add, place_eq_countEarlier (distinct_pairwise htimes) hplace]
    rfl

end Pivot

open Pivot

/-- Spreading with sought slots always has an answer, and it is that of spreading. -/
theorem Frame.pivotSeeking_eq (f : Frame) (schema : Schema) (policy : FillPolicy) :
    f.pivotSeeking schema policy = some (f.pivot schema policy) := by
  unfold pivotSeeking pivot
  split
  next => rfl
  next =>
    cases f.times schema.timeIndex with
    | error e => rfl
    | ok times =>
      dsimp only
      split
      next => rfl
      next hasc =>
        have htimes : times.Pairwise (· ≤ ·) := timesAscend_iff.mp (by simpa using hasc)
        rw [writeRowsSeeking_eq (distinct_pairwise htimes) htimes (fun t => mem_distinct.mpr)
          (fun t _ => Nat.zero_le _), ← slotsFrom_eq htimes]
        cases writeRows f.fields schema (distinct times).length 0 (slotsFrom 0 times) .empty with
        | error e => rfl
        | ok series => cases fieldAt f.fields schema.timeIndex <;> rfl

/-- The slot of every row is found.  Times that ascend are sought among those without adjacent
repetitions, each from the slot of the one before on.  At every row the search ends at a slot that
holds its time, so at one that there is, and before it stand just the distinct times that are
strictly earlier.  These are the slots by which a frame with such times is spread, so spreading
never runs out of distinct times. -/
theorem Pivot.seekAll_finds {times : List Instant} (htimes : times.Pairwise (· ≤ ·)) :
    distinct times = times.destutter (· ≠ ·) ∧
    (∃ slots, seekAll (distinct times) 0 times = some slots ∧ slots = slotsFrom 0 times ∧
      slots.length = times.length ∧
      ∀ (row : Nat) (time : Instant), times[row]? = some time → ∃ slot, slots[row]? = some slot ∧
        slot < (distinct times).length ∧ (distinct times)[slot]? = some time ∧
        slot = (distinct times).countP (· < time)) ∧
    ∀ (f : Frame) (schema : Schema) (policy : FillPolicy),
      f.times schema.timeIndex = .ok times →
        f.pivotSeeking schema policy = some (f.pivot schema policy) := by
  have hasc := distinct_pairwise htimes
  have hseek : seekAll (distinct times) 0 times = some (slotsFrom 0 times) := by
    rw [slotsFrom_eq htimes]
    exact seekAll_eq hasc htimes (fun t => mem_distinct.mpr) (fun t _ => Nat.zero_le _)
  refine ⟨distinct_eq_destutter times, ⟨_, hseek, rfl, length_slotsFrom 0 times, ?_⟩,
    fun f schema policy _ => f.pivotSeeking_eq schema policy⟩
  intro row time hrow
  obtain ⟨slot, hslot, htime⟩ := getElem?_slotsFrom 0 hrow
  rw [Nat.zero_add] at hslot
  exact ⟨slot, hslot, (List.getElem?_eq_some_iff.mp htime).1, htime,
    place_eq_countEarlier hasc htime⟩

/-- A moment in the last second of a minute, twice, one in the leap second that prolongs it, and the
start of the next minute, twice. -/
def leapTimes : List Instant :=
  [.near 59 5, .near 59 5, ⟨59, 1250000000, by decide, by decide, by decide, by decide⟩,
    .near 60 0, .near 60 0]

/-- Loads of two hosts at these times. -/
def leapLoads : Frame :=
  ⟨"loads", [.ofColumn "time" (timeColumn leapTimes),
    .ofColumn "host" ⟨.string, #[some "a", some "b", some "a", some "a", some "b"]⟩,
    .ofColumn "load" ⟨.integer, #[some 1, some 2, some 3, some 4, some 5]⟩], none⟩

theorem Pivot.seekAll_finds_leapTimes : leapTimes.Pairwise (· ≤ ·) ∧
    seekAll (distinct leapTimes) 0 leapTimes = some [0, 0, 1, 2, 2] ∧
    (distinct leapTimes).countP (· < .near 60 0) = 2 ∧
    leapLoads.times leapLoads.schema.timeIndex = .ok leapTimes ∧
    leapLoads.pivotSeeking leapLoads.schema .null =
      some (leapLoads.pivot leapLoads.schema .null) := by
  have hasc : leapTimes.Pairwise (· ≤ ·) := by decide
  have htimes : leapLoads.times leapLoads.schema.timeIndex = .ok leapTimes := rfl
  obtain ⟨-, ⟨slots, hseek, hslots, -, hrows⟩, hpivot⟩ := seekAll_finds hasc
  have hfound : slots = [0, 0, 1, 2, 2] := by
    rw [hslots]
    decide
  rw [hfound] at hseek hrows
  obtain ⟨slot, hslot, -, -, hcount⟩ := hrows 4 (.near 60 0) rfl
  cases hslot
  exact ⟨hasc, hseek, hcount.symm, htimes, hpivot _ _ .null htimes⟩

end SeriesQuery
