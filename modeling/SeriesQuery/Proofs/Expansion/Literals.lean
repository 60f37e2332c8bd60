import SeriesQuery.Proofs.Expansion.Replaced
import SeriesQuery.Proofs.Time.Written

/-!
# Instants in expanded queries

A constant of a dialect denotes an instant if its quoted text, which ends at the first quotation
mark and with the mark of UTC, is read as the instant (`Dialect.Denotes`).  It denotes one at most
(`Denotes.unique`), and what is written of an instant denotes this instant
(`denotes_timestampLiteral`).

So the calls for the ends of the range, and the condition that a column lies in the range, hand on
exactly the range that the query is expanded over (`literals_denote_range`).
-/

namespace SeriesQuery

namespace Dialect

/-- What stands before the quoted text of a constant, with the quotation mark. -/
def opening : Dialect → String
  | .snowflake => "'"
  | .dataFusion => "TIMESTAMP '"

/-- A constant with one quoted text, which is in UTC and is read as an instant. -/
def Denotes (d : Dialect) (text : String) (t : Instant) : Prop :=
  ∃ quoted, text = d.opening ++ String.ofList quoted ++ "'" ∧ '\x27' ∉ quoted ∧
    quoted.getLast? = some 'Z' ∧ Rfc3339.read? quoted = some t

theorem Denotes.unique {d : Dialect} {text : String} {t u : Instant} (ht : d.Denotes text t)
    (hu : d.Denotes text u) : t = u := by
  obtain ⟨quoted, htext, -, -, hread⟩ := ht
  obtain ⟨quoted', htext', -, -, hread'⟩ := hu
  have heq := congrArg String.toList (htext.symm.trans htext')
  simp only [String.toList_append, String.toList_ofList, List.append_assoc] at heq
  have hquoted : quoted = quoted' := List.append_cancel_right (List.append_cancel_left heq)
  rw [hquoted, hread'] at hread
  cases hread
  rfl

theorem timestampLiteral_eq (d : Dialect) (t : Instant) :
    d.timestampLiteral t = d.opening ++ Rfc3339.write t ++ "'" := by
  cases d <;> rfl

/-- What is written of an instant denotes it. -/
theorem denotes_timestampLiteral (d : Dialect) (t : Instant) :
    d.Denotes (d.timestampLiteral t) t := by
  have hread := Rfc3339.read?_write t
  rw [timestampLiteral_eq]
  rw [Rfc3339.write, String.toList_ofList] at hread
  refine ⟨_, rfl, ?_, List.getLast?_concat, hread⟩
  rw [List.mem_append]
  rintro (hmem | hmem)
  · cases Rfc3339.mem_localText t _ hmem with
    | inl hdigit => cases hdigit
    | inr hmark => exact absurd hmark (by decide)
  · exact absurd hmem (by decide)

end Dialect

namespace Call

/-- A call for an end of the range or for the condition that a column lies in it. -/
def NamesRange (call : Call) : Prop :=
  call.name = "__timeFrom".toList ∨ call.name = "__timeTo".toList ∨
    call.name = "__timeFilter".toList

/-- A call for an end of the range or for the condition, with the arguments it takes. -/
inductive AsksForRange (call : Call) : Prop where
  | start (name : call.name = "__timeFrom".toList)
      (arguments : Arguments.ofText call.arguments = [])
  | stop (name : call.name = "__timeTo".toList)
      (arguments : Arguments.ofText call.arguments = [])
  | filter {column : List Char} (name : call.name = "__timeFilter".toList)
      (arguments : Arguments.ofText call.arguments = [column]) (ne_nil : column ≠ [])

/-- A text that says of a range what a call asks for. -/
inductive StatesRange (call : Call) (d : Dialect) (range : TimeRange) : String → Prop where
  | start {text : String} (name : call.name = "__timeFrom".toList)
      (denotes : d.Denotes text range.start) : StatesRange call d range text
  | stop {text : String} (name : call.name = "__timeTo".toList)
      (denotes : d.Denotes text range.stop) : StatesRange call d range text
  | filter {column : List Char} {lower upper : String} (name : call.name = "__timeFilter".toList)
      (arguments : Arguments.ofText call.arguments = [column])
      (lower_denotes : d.Denotes lower range.start) (upper_denotes : d.Denotes upper range.stop) :
      StatesRange call d range (String.ofList column ++ " BETWEEN " ++ lower ++ " AND " ++ upper)

theorem StandsFor.statesRange {call : Call} {d : Dialect} {range : TimeRange} {text : String}
    (h : call.StandsFor d range text) (hname : call.NamesRange) : call.StatesRange d range text := by
  cases h with
  | column name =>
    rw [NamesRange, name] at hname
    exact absurd hname (by decide)
  | rangeStart name => exact .start name (d.denotes_timestampLiteral _)
  | rangeStop name => exact .stop name (d.denotes_timestampLiteral _)
  | filter name arguments =>
    exact .filter name arguments (d.denotes_timestampLiteral _) (d.denotes_timestampLiteral _)
  | bucket name =>
    rw [NamesRange, name] at hname
    exact absurd hname (by decide)

end Call

namespace Expansion

variable {d : Dialect} {ctx ctx' : ExpansionContext}

/-- A call for the range is answered, and leaves the context as it is. -/
theorem expandCall_of_asksForRange {call : Call} (h : call.AsksForRange) (d : Dialect)
    (ctx : ExpansionContext) :
    ∃ text, expandCall d ctx call = .ok (text, ctx) ∧ call.StatesRange d ctx.range text := by
  suffices hanswer : call.NamesRange ∧ ∃ text, expandCall d ctx call = .ok (text, ctx) by
    obtain ⟨hname, text, hcall⟩ := hanswer
    exact ⟨text, hcall, (standsFor_of_expandCall hcall).statesRange hname⟩
  cases h with
  | start name arguments =>
    have hmacro := TimeMacro.ofName?_eq_some_iff (m := .rangeStart).mpr name
    refine ⟨.inl name, d.timestampLiteral ctx.range.start, ?_⟩
    rw [expandCall, hmacro, arguments]
    rfl
  | stop name arguments =>
    have hmacro := TimeMacro.ofName?_eq_some_iff (m := .rangeStop).mpr name
    refine ⟨.inr (.inl name), d.timestampLiteral ctx.range.stop, ?_⟩
    rw [expandCall, hmacro, arguments]
    rfl
  | @filter column name arguments ne_nil =>
    have hmacro := TimeMacro.ofName?_eq_some_iff (m := .filter).mpr name
    have hmissing : missing? .filter [column] = none := by
      simp [missing?, TimeMacro.required, ne_nil]
    refine ⟨.inr (.inr name), d.timeFilter (String.ofList column) ctx.range, ?_⟩
    rw [expandCall, hmacro, arguments]
    dsimp only
    rw [hmissing]
    rfl

/-- An expanded text in which all that is said of the range in the place of calls is said of this
one. -/
def HandsOn (d : Dialect) (range : TimeRange) (raw sql : String) : Prop :=
  ∃ (rs : List Replacement) (last : List Char),
    Cut raw.toList (rs.map (·.toPassage)) last ∧ sql.toList = Replacement.output rs last ∧
      ∀ r ∈ rs, r.call.NamesRange → r.call.StatesRange d range r.fragment

/-- What is written of an instant denotes it and no other, so different instants are written
differently.  The calls for the ends of the range and for the condition that a column lies in it
are answered, and an expanded query denotes in their places the range that it was expanded over,
without the loss of a nanosecond. -/
theorem literals_denote_range (d : Dialect) :
    (∀ t, d.Denotes (d.timestampLiteral t) t) ∧
      (∀ t u, d.Denotes (d.timestampLiteral t) u → u = t) ∧
      (∀ t u, d.timestampLiteral t = d.timestampLiteral u → t = u) ∧
      (∀ ctx call, call.AsksForRange →
        ∃ text, expandCall d ctx call = .ok (text, ctx) ∧ call.StatesRange d ctx.range text) ∧
      ∀ ctx ctx' raw sql, expand d ctx raw = .ok (sql, ctx') → HandsOn d ctx.range raw sql := by
  have hdenotes := d.denotes_timestampLiteral
  refine ⟨hdenotes, fun t u h => h.unique (hdenotes t), fun t u h => ?_,
    fun ctx call h => expandCall_of_asksForRange h d ctx, fun ctx ctx' raw sql h => ?_⟩
  · exact (hdenotes t).unique (h ▸ hdenotes u)
  · obtain ⟨rs, last, hcut, hexpands, hsql⟩ := expand_eq_ok_iff.mp h
    exact ⟨rs, last, hcut, hsql, fun r hr hname => (hexpands.standsFor r hr).statesRange hname⟩

/-- From a nanosecond after the first instant to half a second into a leap second. -/
def widestRange : TimeRange where
  start := ⟨-8334601228800, 1, by decide, by decide, by decide, nofun⟩
  stop := ⟨1483228799, 1500000000, by decide, by decide, by decide, by decide⟩

def rangeQuery : String := "WHERE $__timeFilter(at)"

/-- What the query is expanded to. -/
def rangeExpanded : String :=
  "WHERE at BETWEEN TIMESTAMP '-262143-01-01T00:00:00.000000001Z' " ++
    "AND TIMESTAMP '2016-12-31T23:59:60.500Z'"

theorem literals_denote_range_leapSecond :
    expand .dataFusion (.fresh widestRange Span.zero) rangeQuery =
        .ok (rangeExpanded, .fresh widestRange Span.zero) ∧
      HandsOn .dataFusion widestRange rangeQuery rangeExpanded ∧
      Dialect.Denotes .snowflake "'2016-12-31T23:59:60.500Z'" widestRange.stop ∧
      ∃ text, expandCall .snowflake (.fresh widestRange Span.zero) ⟨"__timeTo".toList, []⟩ =
        .ok (text, .fresh widestRange Span.zero) := by
  have hcut : Cut rangeQuery.toList
      [⟨"WHERE ".toList, ⟨"__timeFilter".toList, "at".toList⟩⟩] [] := cut_iff.mpr (by decide +kernel)
  have hfilter : expandCall .dataFusion (.fresh widestRange Span.zero)
      ⟨"__timeFilter".toList, "at".toList⟩ =
        .ok (Dialect.dataFusion.timeFilter (String.ofList "at".toList) widestRange,
          .fresh widestRange Span.zero) := rfl
  have hexpand : expand .dataFusion (.fresh widestRange Span.zero) rangeQuery =
      .ok (rangeExpanded, .fresh widestRange Span.zero) :=
    expand_eq_ok_iff.mpr ⟨[⟨_, _⟩], _, hcut, .cons hfilter (.nil _), by decide +kernel⟩
  have hliteral : Dialect.snowflake.timestampLiteral widestRange.stop =
      "'2016-12-31T23:59:60.500Z'" := by decide +kernel
  obtain ⟨hdenotes, -, -, hcalls, -⟩ := literals_denote_range .snowflake
  obtain ⟨text, htext, -⟩ := hcalls (.fresh widestRange Span.zero) ⟨"__timeTo".toList, []⟩
    (.stop rfl rfl)
  exact ⟨hexpand, (literals_denote_range .dataFusion).2.2.2.2 _ _ _ _ hexpand,
    hliteral ▸ hdenotes widestRange.stop, text, htext⟩

end Expansion

end SeriesQuery
