import SeriesQuery.Command.Run
import SeriesQuery.Proofs.Command.PrintedWidth
import SeriesQuery.Proofs.Expansion.IllFormed

/-!
# The range of an expansion on the command line

A range that is given no start starts six hours before its end.  What is six hours before an
instant is told by moments, which are nanoseconds since the start of 1970
(`Instant.before?_eq_some_iff`), and there is no such instant exactly for ends in the first six
hours that there are (`Instant.before?_eq_none_iff`).

The six hours are taken off before it is known whether a start is given.  So an end in the first
six hours is a fault even where the start is given and nothing depends on the six hours
(`expand_faults_with_start`).  `expand_ends` says how every expansion ends: in this fault, or else
with the range that was asked for, and then with what the expansion of the query comes to.
-/

namespace SeriesQuery

namespace Instant

/-- The nanoseconds since the start of 1970.  An instant in a leap second has those of the second
that follows it. -/
def moment (t : Instant) : Int := t.second * nanosPerSecond + t.nano

theorem isLeap_eq_false_iff {t : Instant} : t.isLeap = false ↔ t.nano < nanosPerSecond := by
  rw [isLeap, decide_eq_false_iff_not, Nat.not_le]

/-- Of instants in no leap second a moment has only one. -/
theorem eq_of_moment {s t : Instant} (hs : s.isLeap = false) (ht : t.isLeap = false)
    (h : s.moment = t.moment) : s = t := by
  rw [isLeap_eq_false_iff] at hs ht
  unfold moment at h
  unfold nanosPerSecond at hs ht h
  have hsecond : s.second = t.second := by omega
  have hnano : s.nano = t.nano := by omega
  cases s
  cases t
  cases hsecond
  cases hnano
  rfl

/-- What is some seconds before an instant lies in no leap second, and its moment is as much
earlier. -/
theorem before?_eq_some_iff {s t : Instant} {seconds : Nat} :
    t.before? seconds = some s ↔
      s.isLeap = false ∧ s.moment + seconds * nanosPerSecond = t.moment := by
  have hnano := t.nano_lt
  rw [before?, isLeap_eq_false_iff]
  unfold moment nanosPerSecond
  by_cases hleap : t.isLeap = true
  · have hge : 1000000000 ≤ t.nano := of_decide_eq_true hleap
    rw [if_pos hleap, of?_eq_some_iff]
    omega
  · have hlt : t.nano < 1000000000 := isLeap_eq_false_iff.mp (Bool.eq_false_iff.mpr hleap)
    rw [if_neg hleap, of?_eq_some_iff]
    omega

/-- Nothing is some seconds before an instant if fewer have passed since the first one. -/
theorem before?_eq_none_iff {t : Instant} {seconds : Nat} (hpos : 0 < seconds) :
    t.before? seconds = none ↔ t.moment < (firstSecond + seconds) * nanosPerSecond := by
  have hle := t.second_le
  have hnano := t.nano_lt
  rw [before?, moment]
  unfold firstSecond nanosPerSecond
  by_cases hleap : t.isLeap = true
  · have hge : 1000000000 ≤ t.nano := of_decide_eq_true hleap
    rw [if_pos hleap, of?, dite_eq_right_iff]
    simp only [reduceCtorEq, imp_false]
    omega
  · have hlt : t.nano < 1000000000 := isLeap_eq_false_iff.mp (Bool.eq_false_iff.mpr hleap)
    rw [if_neg hleap, of?, dite_eq_right_iff]
    simp only [reduceCtorEq, imp_false]
    omega

end Instant

/-- The first instant there is. -/
def Instant.first : Instant := (ofSecond? firstSecond).get (by decide)

namespace CommandLine

/-- The range that an expansion is asked for: up to its end or to the present, from its start or
from six hours before. -/
structure AsksFor (a : ExpandArguments) (now : Instant) (range : TimeRange) : Prop where
  stop : range.stop = a.stop.getD now
  start : ∀ start, a.start = some start → range.start = start
  usual : a.start = none → range.start.isLeap = false ∧
    range.start.moment + usualRange * nanosPerSecond = range.stop.moment

/-- What an expansion over a range comes to: an answer, the error of the query, or the fault of a
width that leaves the range of spans in the last step of its reading. -/
inductive EndsAs (a : ExpandArguments) (c : Configuration) (range : TimeRange) :
    CommandOutcome → Prop where
  | done {sql : String} {context : ExpansionContext}
      (expanded : Expansion.expand (a.dialect.getD c.dialect) (.fresh range a.interval) a.query =
        .ok (sql, context)) : EndsAs a c range (.done (expansionText sql context))
  | failed {e : ExpansionError}
      (refused : Expansion.expand (a.dialect.getD c.dialect) (.fresh range a.interval) a.query =
        .error e)
      (readable : ∀ width, e ≠ .invalidWidth width (.unreadable .carryOverflow)) :
      EndsAs a c range (.failed (.expansion e))
  | fault {width : String}
      (refused : Expansion.expand (a.dialect.getD c.dialect) (.fresh range a.interval) a.query =
        .error (.invalidWidth width (.unreadable .carryOverflow))) :
      EndsAs a c range (.fault Span.ReadError.carryOverflow.message)

/-- Whether an end leaves no room for the six hours before it. -/
def TooEarly (stop : Instant) : Prop :=
  stop.moment < (Instant.firstSecond + usualRange) * nanosPerSecond

variable {a : ExpandArguments} {c : Configuration} {now : Instant}

theorem expand_of_tooEarly (h : TooEarly (a.stop.getD now)) :
    expand a c now = .fault rangeFault := by
  have hnone := (Instant.before?_eq_none_iff (by decide)).mpr h
  simp only [expand, hnone]

theorem exists_endsAs (h : ¬ TooEarly (a.stop.getD now)) :
    ∃ range, AsksFor a now range ∧ EndsAs a c range (expand a c now) := by
  cases hbefore : (a.stop.getD now).before? usualRange with
  | none => exact absurd ((Instant.before?_eq_none_iff (by decide)).mp hbefore) h
  | some sixHoursBefore =>
    refine ⟨⟨a.start.getD sixHoursBefore, a.stop.getD now⟩, ⟨rfl, ?_, ?_⟩, ?_⟩
    · intro start hstart
      rw [hstart, Option.getD_some]
    · intro hstart
      rw [hstart, Option.getD_none]
      exact Instant.before?_eq_some_iff.mp hbefore
    · simp only [expand, hbefore]
      split
      next sql context hexpand => exact .done hexpand
      next e hexpand =>
        split
        next text hfault =>
          obtain ⟨rfl, width, rfl⟩ := QueryError.ofExpansion_eq_fault_iff.mp hfault
          exact .fault hexpand
        next hnot =>
          exact .failed hexpand fun width he =>
            hnot _ (QueryError.ofExpansion_eq_fault_iff.mpr ⟨rfl, width, he⟩)

/-- An expansion over a range is a fault exactly for one kind of width, which does not depend on
the range. -/
theorem EndsAs.eq_fault_iff {range : TimeRange} {outcome : CommandOutcome}
    (h : EndsAs a c range outcome) {passages : List Passage} {last : List Char}
    (hcut : Cut a.query.toList passages last) {text : String} :
    outcome = .fault text ↔ text = Span.ReadError.carryOverflow.message ∧ ∃ width,
      Passage.FirstIllFormed False passages (.invalidWidth width (.unreadable .carryOverflow)) := by
  have hfirst : ∀ e, Expansion.expand (a.dialect.getD c.dialect) (.fresh range a.interval) a.query =
      .error e ↔ Passage.FirstIllFormed False passages e := by
    intro e
    rw [Expansion.expand_eq_error_iff hcut, ExpansionContext.fresh, Bool.false_eq_true]
  simp only [← hfirst]
  cases h with
  | done hexpand =>
    refine ⟨nofun, ?_⟩
    rintro ⟨-, width, hrefused⟩
    cases hexpand.symm.trans hrefused
  | failed hrefused hreadable =>
    refine ⟨nofun, ?_⟩
    rintro ⟨-, width, hrefused'⟩
    cases hrefused.symm.trans hrefused'
    exact absurd rfl (hreadable width)
  | fault hrefused =>
    rw [CommandOutcome.fault.injEq]
    exact ⟨fun h => ⟨h.symm, _, hrefused⟩, fun h => h.1.symm⟩

/-- Where there is room for six hours before the end, an expansion is over the range that was
asked for: a start that is given is used as it is, and otherwise the range starts six hours before
its end.  It ends with an answer or with the error of the query.  It ends with a fault exactly if
there is no room for the six hours, whether a start is given or not, or if the leftmost ill-formed
call has a width of one kind that cannot be read. -/
theorem expand_ends (a : ExpandArguments) (c : Configuration) (now : Instant) :
    (¬ TooEarly (a.stop.getD now) →
      ∃ range, AsksFor a now range ∧ EndsAs a c range (expand a c now)) ∧
    ∃ passages last, Cut a.query.toList passages last ∧ ∀ text,
      expand a c now = .fault text ↔
        text = rangeFault ∧ TooEarly (a.stop.getD now) ∨
          text = Span.ReadError.carryOverflow.message ∧ ¬ TooEarly (a.stop.getD now) ∧
            ∃ width, Passage.FirstIllFormed False passages
              (.invalidWidth width (.unreadable .carryOverflow)) := by
  have hcut := Passage.cut_ofText a.query.toList
  refine ⟨exists_endsAs, _, _, hcut, fun text => ?_⟩
  by_cases h : TooEarly (a.stop.getD now)
  · rw [expand_of_tooEarly h, CommandOutcome.fault.injEq]
    simp only [h, not_true_eq_false, false_and, and_false, or_false, and_true]
    exact eq_comm
  · obtain ⟨range, -, hends⟩ := exists_endsAs (c := c) h
    rw [hends.eq_fault_iff hcut]
    simp only [h, not_false_eq_true, true_and, and_false, false_or]

/-- A query for both ends of its range. -/
def bothEnds : ExpandArguments :=
  ⟨"SELECT $__timeFrom(), $__timeTo()", none, none, Span.zero, none⟩

/-- Six hours after the first instant. -/
def sixHoursIn : Instant := (Instant.ofSecond? (Instant.firstSecond + usualRange)).get (by decide)

theorem cut_bothEnds : Cut bothEnds.query.toList [⟨"SELECT ".toList, ⟨"__timeFrom".toList, []⟩⟩,
    ⟨", ".toList, ⟨"__timeTo".toList, []⟩⟩] [] := cut_iff.mpr (by decide +kernel)

/-- The range that ends six hours after the first instant starts at the first instant. -/
theorem expand_ends_sixHoursIn : ¬ TooEarly sixHoursIn ∧
    expand { bothEnds with stop := some sixHoursIn } withoutTables (.near 0 0) = .done
      ("SELECT '-262143-01-01T00:00:00Z', '-262143-01-01T06:00:00Z'" ++
        "\n-- interval: 0s\n-- fill: none\n") := by
  have hroom : ¬ TooEarly sixHoursIn := by unfold TooEarly; decide
  refine ⟨hroom, ?_⟩
  obtain ⟨⟨start, stop⟩, hrange, hends⟩ :=
    (expand_ends { bothEnds with stop := some sixHoursIn } withoutTables (.near 0 0)).1 hroom
  obtain rfl : stop = sixHoursIn := hrange.stop
  obtain ⟨hleap, hmoment⟩ := hrange.usual rfl
  have hfirst : Instant.first.moment + usualRange * nanosPerSecond = sixHoursIn.moment := by decide
  dsimp only at hleap hmoment
  obtain rfl : start = .first := Instant.eq_of_moment hleap (by decide) (by omega)
  have hexpanded : Expansion.expand .snowflake (.fresh ⟨.first, sixHoursIn⟩ Span.zero)
      bothEnds.query = .ok ("SELECT '-262143-01-01T00:00:00Z', '-262143-01-01T06:00:00Z'",
        .fresh ⟨.first, sixHoursIn⟩ Span.zero) := by
    rw [Expansion.expand, cut_bothEnds.ofText_eq]
    rfl
  generalize expand _ _ _ = outcome at hends ⊢
  cases hends with
  | done hexpand =>
    cases hexpanded.symm.trans hexpand
    rfl
  | failed hrefused => cases hexpanded.symm.trans hrefused
  | fault hrefused => cases hexpanded.symm.trans hrefused

/-- A range of a single instant, the first one, is a fault, though it is given and the query can
be expanded over it. -/
theorem expand_faults_with_start :
    (∃ context, Expansion.expand .snowflake (.fresh ⟨.first, .first⟩ Span.zero) bothEnds.query =
      .ok ("SELECT '-262143-01-01T00:00:00Z', '-262143-01-01T00:00:00Z'", context)) ∧
      expand { bothEnds with start := some .first, stop := some .first } withoutTables
        (.near 0 0) = .fault rangeFault := by
  refine ⟨?_, expand_of_tooEarly ?_⟩
  · rw [Expansion.expand, cut_bothEnds.ofText_eq]
    exact ⟨_, rfl⟩
  · unfold TooEarly
    decide

end CommandLine

end SeriesQuery
