import SeriesQuery.Proofs.Result.Reading
import SeriesQuery.Service.Http

/-!
# What the health check accepts

The health check asks for the number 1 and is meant to accept one row with this number alone.  It
looks at the first slot after the last row, and no slot is blanked between the rows.  So what it
finds there is the first value of the last row that has one (`Cursor.head?_drain`), and it accepts
if this is the number 1, whatever the rows before were and however many columns there are
(`health_accepts`).  A single 1 is accepted, and a result with several rows or columns may be
accepted too (`health_accepts_two_rows`).
-/

namespace SeriesQuery

theorem Row.head?_write (row : Row) (slots : List Scalar) :
    (row.write slots).head? = slots.head?.map fun old => row.head?.getD old := by
  simp only [List.head?_eq_getElem?, Row.getElem?_write]

namespace Cursor

/-- The first value of the last row that has one. -/
def lastFirst? (c : Cursor) : Option Scalar := (c.pending.filterMap List.head?).getLast?

/-- The first slot after all rows holds the last first value, or what it held before. -/
theorem head?_drain (c : Cursor) (slots : List Scalar) :
    (c.drain slots).head? = slots.head?.map fun old => c.lastFirst?.getD old := by
  obtain ⟨rows, failure⟩ := c
  rw [drain, lastFirst?]
  dsimp only
  induction rows generalizing slots with
  | nil => simp
  | cons row rows ih =>
    rw [List.foldl_cons, ih, Row.head?_write, Option.map_map]
    congr 1
    funext old
    cases row with
    | nil => rfl
    | cons v row =>
      rw [List.filterMap_cons_some (List.head?_cons), List.getLast?_cons]
      rfl

end Cursor

namespace ResultSet

/-- The result is one row with one column, the number 1, and its end. -/
def IsSingleOne (result : ResultSet) : Prop :=
  ∃ head surplus, result = ⟨[head], ⟨[.int 1 :: surplus], none⟩⟩

/-- The result ends, it has a column, and the last row that has a value has the number 1 in
front. -/
structure EndsWithOne (result : ResultSet) : Prop where
  ends : result.cursor.failure = none
  columns : result.columns ≠ []
  last : result.cursor.lastFirst? = some (.int 1)

end ResultSet

namespace Health

/-- Why a result is not accepted. -/
inductive Refuses (result : ResultSet) : ExecutionError → Prop where
  | fails {e : ExecutionError} (failure : result.cursor.failure = some e) : Refuses result e
  | nothing (ends : result.cursor.failure = none)
      (h : result.columns = [] ∨ result.cursor.pending = []) :
      Refuses result (.other "failed to get 1: no rows returned")
  /-- A row without values leaves a null in the first slot, if no row before has written there. -/
  | notOne (ends : result.cursor.failure = none) (columns : result.columns ≠ [])
      (rows : result.cursor.pending ≠ []) (h : result.cursor.lastFirst?.getD .null ≠ .int 1) :
      Refuses result (.other
        ("failed to get 1: got [" ++ (result.cursor.lastFirst?.getD .null).text ++ "]"))

theorem judge_some (v : Scalar) :
    judge (some v) = if v = .int 1 then .ok ()
      else .error (.other ("failed to get 1: got [" ++ v.text ++ "]")) := by
  split
  next h =>
    rw [h]
    rfl
  next h => exact judge.eq_2 v h

/-- The value that is judged, where the cursor reports the end. -/
theorem check_of_ends {result : ResultSet} (hends : result.cursor.failure = none)
    (hcolumns : result.columns ≠ []) (hrows : result.cursor.pending ≠ []) :
    check result = judge (some (result.cursor.lastFirst?.getD .null)) := by
  obtain ⟨head, heads, hheads⟩ := List.exists_cons_of_ne_nil hcolumns
  rw [check, hends]
  dsimp only
  rw [if_neg hrows, Cursor.head?_drain, hheads, List.length_cons, blankSlots_succ]
  rfl

theorem check_of_nothing {result : ResultSet} (hends : result.cursor.failure = none)
    (h : result.columns = [] ∨ result.cursor.pending = []) : check result = judge none := by
  rw [check, hends]
  dsimp only
  split
  next => rfl
  next hrows =>
    rw [Cursor.head?_drain, h.resolve_right hrows]
    rfl

theorem check_of_endsWithOne {result : ResultSet} (h : result.EndsWithOne) :
    check result = .ok () := by
  have hrows : result.cursor.pending ≠ [] := by
    intro hnil
    have hlast := h.last
    rw [Cursor.lastFirst?, hnil] at hlast
    cases hlast
  rw [check_of_ends h.ends h.columns hrows, h.last]
  rfl

theorem check_of_refuses {result : ResultSet} {e : ExecutionError} (h : Refuses result e) :
    check result = .error e := by
  cases h with
  | fails failure => rw [check, failure]
  | nothing ends h =>
    rw [check_of_nothing ends h]
    rfl
  | notOne ends columns rows h => rw [check_of_ends ends columns rows, judge_some, if_neg h]

theorem endsWithOne_or_refuses (result : ResultSet) :
    result.EndsWithOne ∨ ∃ e, Refuses result e := by
  cases hends : result.cursor.failure with
  | some e => exact .inr ⟨e, .fails hends⟩
  | none =>
    by_cases hnothing : result.columns = [] ∨ result.cursor.pending = []
    · exact .inr ⟨_, .nothing hends hnothing⟩
    · rw [not_or] at hnothing
      obtain ⟨hcolumns, hrows⟩ := hnothing
      by_cases hone : result.cursor.lastFirst?.getD .null = .int 1
      · refine .inl ⟨hends, hcolumns, ?_⟩
        cases hlast : result.cursor.lastFirst? with
        | none =>
          rw [hlast] at hone
          cases hone
        | some v =>
          rw [hlast] at hone
          exact congrArg some hone
      · exact .inr ⟨_, .notOne hends hcolumns hrows hone⟩

theorem check_eq_ok_iff {result : ResultSet} : check result = .ok () ↔ result.EndsWithOne := by
  refine ⟨fun h => (endsWithOne_or_refuses result).resolve_right ?_, check_of_endsWithOne⟩
  rintro ⟨e, he⟩
  cases h.symm.trans (check_of_refuses he)

theorem check_eq_error_iff {result : ResultSet} {e : ExecutionError} :
    check result = .error e ↔ Refuses result e := by
  refine ⟨fun h => ?_, check_of_refuses⟩
  rcases endsWithOne_or_refuses result with hone | ⟨e', he'⟩
  · cases h.symm.trans (check_of_endsWithOne hone)
  · cases h.symm.trans (check_of_refuses he')
    exact he'

end Health

/-- A single 1 is what is accepted with one row and one column. -/
theorem ResultSet.isSingleOne_iff {result : ResultSet} :
    result.IsSingleOne ↔
      result.EndsWithOne ∧ result.columns.length = 1 ∧ result.cursor.pending.length = 1 := by
  constructor
  · rintro ⟨head, surplus, rfl⟩
    exact ⟨⟨rfl, List.cons_ne_nil _ _, rfl⟩, rfl, rfl⟩
  · obtain ⟨heads, rows, failure⟩ := result
    rintro ⟨⟨hends, -, hlast⟩, hcolumns, hrows⟩
    obtain ⟨head, rfl⟩ := List.length_eq_one_iff.mp hcolumns
    obtain ⟨row, rfl⟩ := List.length_eq_one_iff.mp hrows
    cases row with
    | nil => cases hlast
    | cons v surplus =>
      cases hends
      cases hlast
      exact ⟨head, surplus, rfl⟩

namespace Service

theorem health_eq_ok_iff {s : Service} :
    s.health = healthReply 200 "ok" "Data source is working" ↔
      ∃ result, s.executor.answer Health.statement = .rows result ∧ result.EndsWithOne := by
  have hstatus : ∀ message, unhealthy message ≠ healthReply 200 "ok" "Data source is working" := by
    intro message h
    injection h with h
    injection h with hstatus
    cases hstatus
  rw [health]
  cases s.executor.answer Health.statement with
  | waiting => exact iff_of_false (hstatus _) (by rintro ⟨result, ⟨⟩, -⟩)
  | failure e => exact iff_of_false (hstatus _) (by rintro ⟨result, ⟨⟩, -⟩)
  | fault f => exact iff_of_false nofun (by rintro ⟨result, ⟨⟩, -⟩)
  | rows result =>
    simp only [Answer.rows.injEq, exists_eq_left', ← Health.check_eq_ok_iff]
    cases Health.check result with
    | error e => exact iff_of_false (hstatus _) nofun
    | ok u => exact iff_of_true rfl rfl

/-- The health check accepts an executor whose answer ends, has a column, and has the number 1 in
front of the last row that has values.  Everything else is refused with a failure that says why.
A single 1 is accepted, and of the results with one row and one column nothing else; a result with
several rows or columns is accepted if it ends so. -/
theorem health_accepts (s : Service) :
    (s.health = healthReply 200 "ok" "Data source is working" ↔
      ∃ result, s.executor.answer Health.statement = .rows result ∧ result.EndsWithOne) ∧
    ∀ result : ResultSet,
      (Health.check result = .ok () ↔ result.EndsWithOne) ∧
      (∀ e, Health.check result = .error e ↔ Health.Refuses result e) ∧
      (result.IsSingleOne ↔
        Health.check result = .ok () ∧ result.columns.length = 1 ∧
          result.cursor.pending.length = 1) := by
  refine ⟨health_eq_ok_iff, fun result => ⟨Health.check_eq_ok_iff, fun e => ?_, ?_⟩⟩
  · exact Health.check_eq_error_iff
  · rw [Health.check_eq_ok_iff]
    exact ResultSet.isSingleOne_iff

/-- Two rows, of which only the second is a 1. -/
def twoRows : ResultSet := ⟨[⟨"1", .kind .integer⟩], ⟨[[.int 2], [.int 1]], none⟩⟩

theorem health_accepts_two_rows : Health.check twoRows = .ok () ∧ ¬ twoRows.IsSingleOne := by
  refine ⟨rfl, ?_⟩
  rintro ⟨head, surplus, h⟩
  cases h

end Service

end SeriesQuery
