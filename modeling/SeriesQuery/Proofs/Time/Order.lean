import Mathlib.Order.Defs.LinearOrder
import SeriesQuery.Frame.Basic

/-!
# The order of instants

Instants are linearly ordered, by second and then by nanosecond.  The check that
the times of a frame ascend decides whether they are pairwise in this order.
-/

namespace SeriesQuery

namespace Instant

/-- An instant of the first hours before and after the start of 1970. -/
def near (second : Int16) (nano : UInt16) : Instant where
  second := second.toInt
  nano := nano.toNat
  second_ge := by have := second.le_toInt; omega
  second_le := by have := second.toInt_lt; omega
  nano_lt := by have := nano.toNat_lt; omega
  leap := by have := nano.toNat_lt; omega

/-- An instant is at most another one unless that is earlier. -/
instance : LE Instant := ⟨fun s t => ¬ t < s⟩

instance (s t : Instant) : Decidable (s ≤ t) := inferInstanceAs (Decidable (¬ t < s))

theorem le_iff {s t : Instant} : s ≤ t ↔ ¬ t < s := Iff.rfl

instance : LinearOrder Instant where
  le_refl t := lt_irrefl t
  le_trans s t u hst htu := by rw [le_iff, lt_iff] at *; omega
  le_antisymm s t hst hts := eq_of_not_lt hts hst
  le_total s t := by rw [le_iff, le_iff, lt_iff, lt_iff]; omega
  lt_iff_le_not_ge s t := by rw [le_iff, le_iff, lt_iff, lt_iff]; omega
  toDecidableLE s t := inferInstance
  toDecidableLT s t := inferInstance

theorem second_le_of_le {s t : Instant} (h : s ≤ t) : s.second ≤ t.second := by
  rw [le_iff, lt_iff] at h; omega

theorem lt_of_second_lt {s t : Instant} (h : s.second < t.second) : s < t := Or.inl h

theorem of?_eq_some_iff {second : Int} {nano : Nat} {t : Instant} :
    of? second nano = some t ↔ t.second = second ∧ t.nano = nano := by
  obtain ⟨second', nano', hge, hle, hnano, hleap⟩ := t
  unfold of?
  constructor
  · intro h
    split at h
    · cases h; exact ⟨rfl, rfl⟩
    · cases h
  · rintro ⟨rfl, rfl⟩
    exact dif_pos ⟨⟨hge, hle⟩, hnano, hleap⟩

/-- The instant of a second is the one with that second and no nanoseconds. -/
theorem ofSecond?_eq_some_iff {second : Int} {t : Instant} :
    ofSecond? second = some t ↔ t.second = second ∧ t.nano = 0 := of?_eq_some_iff

/-- Strictly ascending instants are in the order of their places. -/
theorem getElem?_lt_iff {times : List Instant} (hasc : times.Pairwise (· < ·)) {i j : Nat}
    {s t : Instant} (hi : times[i]? = some s) (hj : times[j]? = some t) : s < t ↔ i < j := by
  obtain ⟨hilt, rfl⟩ := List.getElem?_eq_some_iff.mp hi
  obtain ⟨hjlt, rfl⟩ := List.getElem?_eq_some_iff.mp hj
  rw [List.pairwise_iff_getElem] at hasc
  constructor
  · intro h
    by_contra hij
    cases Nat.lt_or_eq_of_le (Nat.le_of_not_lt hij) with
    | inl hji => exact lt_asymm h (hasc j i hjlt hilt hji)
    | inr he =>
      subst he
      exact lt_irrefl _ h
  · intro h
    exact hasc i j hilt hjlt h

theorem getElem?_le_iff {times : List Instant} (hasc : times.Pairwise (· < ·)) {i j : Nat}
    {s t : Instant} (hi : times[i]? = some s) (hj : times[j]? = some t) : s ≤ t ↔ i ≤ j :=
  (not_congr (getElem?_lt_iff hasc hj hi)).trans Nat.not_lt

/-- Of the times up to an instant one is the latest, if there are any. -/
theorem exists_latest (times : List Instant) (t : Instant) :
    (∀ time ∈ times, ¬ time ≤ t) ∨
      ∃ last ∈ times, last ≤ t ∧ ∀ time ∈ times, time ≤ t → time ≤ last := by
  induction times with
  | nil => exact .inl fun time h => nomatch h
  | cons s times ih =>
    by_cases hs : s ≤ t
    · right
      rcases ih with hnone | ⟨last, hmem, hle, hlast⟩
      · refine ⟨s, List.mem_cons_self, hs, fun time htime ht => ?_⟩
        rcases List.mem_cons.mp htime with rfl | htime
        · exact le_refl _
        · exact absurd ht (hnone time htime)
      · rcases le_total s last with h | h
        · refine ⟨last, List.mem_cons_of_mem _ hmem, hle, fun time htime ht => ?_⟩
          rcases List.mem_cons.mp htime with rfl | htime
          · exact h
          · exact hlast time htime ht
        · refine ⟨s, List.mem_cons_self, hs, fun time htime ht => ?_⟩
          rcases List.mem_cons.mp htime with rfl | htime
          · exact le_refl _
          · exact le_trans (hlast time htime ht) h
    · rcases ih with hnone | ⟨last, hmem, hle, hlast⟩
      · refine .inl fun time htime => ?_
        rcases List.mem_cons.mp htime with rfl | htime
        · exact hs
        · exact hnone time htime
      · refine .inr ⟨last, List.mem_cons_of_mem _ hmem, hle, fun time htime ht => ?_⟩
        rcases List.mem_cons.mp htime with rfl | htime
        · exact absurd ht hs
        · exact hlast time htime ht

end Instant

namespace Frame

/-- The times of a frame ascend if no time is earlier than one before it. -/
theorem timesAscend_iff {times : List Instant} :
    timesAscend times = true ↔ times.Pairwise (· ≤ ·) := by
  induction times with
  | nil => simp [timesAscend]
  | cons s times ih =>
    cases times with
    | nil => simp [timesAscend]
    | cons t times =>
      rw [timesAscend, Bool.and_eq_true, ih, List.pairwise_cons (a := s)]
      simp only [Bool.not_eq_true', decide_eq_false_iff_not, not_lt]
      constructor
      · rintro ⟨hst, hts⟩
        refine ⟨fun u hu => ?_, hts⟩
        cases List.mem_cons.mp hu with
        | inl h => exact h ▸ hst
        | inr h => exact le_trans hst ((List.pairwise_cons.mp hts).1 u h)
      · rintro ⟨hs, hts⟩
        exact ⟨hs t List.mem_cons_self, hts⟩

end Frame

end SeriesQuery
