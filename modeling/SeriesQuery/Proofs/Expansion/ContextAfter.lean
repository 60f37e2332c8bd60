import SeriesQuery.Proofs.Expansion.Replaced

/-!
# The context after an expansion

Later stages fill gaps by the context that an expansion ends with, and the database puts rows on
buckets by the text.  Both speak of the same buckets (`expand_context_agrees`): a text has at most
one call for buckets, whose fragment is written with the interval of the context, and gaps are
filled only if this call names a mode (`Replacement.Groups`).

One call leaves the context as it is or is the call for buckets (`expandCall_groups`).  Once there
was such a call no other one is expanded and the context stays (`Expands.of_bucketUsed`), so there
is at most one along the calls of a text (`Expands.groups`).
-/

namespace SeriesQuery

/-- A call for buckets has been replaced by what the context after it says. -/
structure Replacement.Groups (r : Replacement) (d : Dialect) (ctx : ExpansionContext)
    (column width : List Char) (mode : Option (List Char)) : Prop where
  name : r.call.name = "__timeGroup".toList
  arguments : Arguments.ofText r.call.arguments = column :: width :: mode.toList
  width_eq : Expansion.readWidth width = .ok ctx.interval
  fragment : r.fragment = d.timeBucket (String.ofList column) ctx.interval.seconds
  bucketUsed : ctx.bucketUsed = true
  fill : ctx.fill = mode.bind FillPolicy.read?
  /-- A mode that is no policy is not accepted. -/
  fill_isSome : ctx.fill.isSome = mode.isSome

/-- The buckets are at least a second wide, without a fraction of one. -/
theorem Replacement.Groups.wholeSeconds {r : Replacement} {d : Dialect} {ctx : ExpansionContext}
    {column width : List Char} {mode : Option (List Char)} (h : r.Groups d ctx column width mode) :
    1 ≤ ctx.interval.seconds ∧ ctx.interval.nanos = 0 := by
  obtain ⟨hseconds, hnanos⟩ := Expansion.wholeSeconds_of_readWidth h.width_eq
  exact ⟨Nat.one_le_iff_ne_zero.mpr hseconds, hnanos⟩

namespace Expansion

variable {d : Dialect} {ctx ctx' : ExpansionContext} {rs : List Replacement}

theorem readFill_eq_ok {mode : Option (List Char)} {fill : Option FillPolicy}
    (h : readFill mode.toList = .ok fill) :
    fill = mode.bind FillPolicy.read? ∧ fill.isSome = mode.isSome := by
  cases mode with
  | none =>
    cases h
    exact ⟨rfl, rfl⟩
  | some mode =>
    show fill = FillPolicy.read? mode ∧ fill.isSome = true
    rw [Option.toList, readFill] at h
    cases hread : FillPolicy.read? mode with
    | none =>
      rw [hread] at h
      cases h
    | some policy =>
      rw [hread] at h
      cases h
      exact ⟨rfl, rfl⟩

/-- A call leaves the context as it is, or is the first one for buckets. -/
theorem expandCall_groups {r : Replacement}
    (h : expandCall d ctx r.call = .ok (r.fragment, ctx')) :
    (r.call.name ≠ "__timeGroup".toList ∧ ctx' = ctx) ∨
      ctx.bucketUsed = false ∧
        (ctx.fill = none → ∃ column width mode, r.Groups d ctx' column width mode) := by
  obtain ⟨m, hname, htakes, hfragment⟩ := expandCall_eq_ok h
  replace hname := TimeMacro.ofName?_eq_some_iff.mp hname
  rcases fragment_cases hfragment with ⟨hne, hctx⟩ | ⟨rfl, hunused, h⟩
  · refine .inl ⟨?_, hctx⟩
    rw [hname]
    cases m with
    | bucket => exact absurd rfl hne
    | _ => decide
  · obtain ⟨column, width, mode, hargs⟩ := bucket_arguments htakes
    rw [hargs] at h
    obtain ⟨span, fill, hwidth, hfill, htext, rfl⟩ := h
    refine .inr ⟨hunused, fun hnone => ⟨column, width, mode, ?_⟩⟩
    obtain ⟨hmode, hsome⟩ := readFill_eq_ok hfill
    have hor : fill.or ctx.fill = fill := by rw [hnone, Option.or_none]
    exact ⟨hname, hargs, hwidth, htext, rfl, hor.trans hmode, by rw [hor, hsome]⟩

/-- After a call for buckets there is no other one, and the context stays. -/
theorem Expands.of_bucketUsed (hused : ctx.bucketUsed = true) (h : Expands d ctx rs ctx') :
    (∀ r ∈ rs, r.call.name ≠ "__timeGroup".toList) ∧ ctx' = ctx := by
  induction h with
  | nil => exact ⟨nofun, rfl⟩
  | cons call _ ih =>
    rcases expandCall_groups call with ⟨hname, rfl⟩ | ⟨hunused, -⟩
    · obtain ⟨hnames, hctx⟩ := ih hused
      exact ⟨List.forall_mem_cons.mpr ⟨hname, hnames⟩, hctx⟩
    · cases hused.symm.trans hunused

/-- Before any call for buckets the context is the one at the start, and afterwards it is the one
after that call. -/
theorem Expands.groups (hfill : ctx.fill = none) (h : Expands d ctx rs ctx') :
    ((∀ r ∈ rs, r.call.name ≠ "__timeGroup".toList) ∧ ctx' = ctx) ∨
      ∃ before r after, rs = before ++ r :: after ∧
        (∀ other ∈ before ++ after, other.call.name ≠ "__timeGroup".toList) ∧
          ∃ column width mode, r.Groups d ctx' column width mode := by
  induction h with
  | nil => exact .inl ⟨nofun, rfl⟩
  | @cons ctx mid ctx' r rs call rest ih =>
    rcases expandCall_groups call with ⟨hname, rfl⟩ | ⟨-, hgroups⟩
    · rcases ih hfill with ⟨hnames, hctx⟩ | ⟨before, s, after, rfl, hnames, hs⟩
      · exact .inl ⟨List.forall_mem_cons.mpr ⟨hname, hnames⟩, hctx⟩
      · exact .inr ⟨r :: before, s, after, rfl, List.forall_mem_cons.mpr ⟨hname, hnames⟩, hs⟩
    · obtain ⟨column, width, mode, hr⟩ := hgroups hfill
      obtain ⟨hnames, rfl⟩ := rest.of_bucketUsed hr.bucketUsed
      exact .inr ⟨[], r, rs, rfl, hnames, column, width, mode, hr⟩

/-- The context after an expansion agrees with the text.  The range is the one at the start.
Without a call for buckets the context is, and there is at most one such call, which is replaced
by what the context says.  So gaps are only filled if there are buckets of whole seconds. -/
theorem expand_context_agrees (d : Dialect) (range : TimeRange) (interval : Span)
    (raw sql : String) (ctx : ExpansionContext)
    (h : expand d (.fresh range interval) raw = .ok (sql, ctx)) :
    ctx.range = range ∧
      (∃ (rs : List Replacement) (last : List Char),
        Cut raw.toList (rs.map (·.toPassage)) last ∧ sql.toList = Replacement.output rs last ∧
          (((∀ r ∈ rs, r.call.name ≠ "__timeGroup".toList) ∧ ctx = .fresh range interval) ∨
            ∃ before r after, rs = before ++ r :: after ∧
              (∀ other ∈ before ++ after, other.call.name ≠ "__timeGroup".toList) ∧
                (∃ column width mode, r.Groups d ctx column width mode) ∧
                  1 ≤ ctx.interval.seconds ∧ ctx.interval.nanos = 0)) ∧
      ∀ policy, ctx.fill = some policy →
        ctx.bucketUsed = true ∧ 1 ≤ ctx.interval.seconds ∧ ctx.interval.nanos = 0 := by
  obtain ⟨rs, last, hcut, hexpands, hsql⟩ := expand_eq_ok_iff.mp h
  rcases hexpands.groups rfl with hnone | ⟨before, r, after, hrs, hnames, column, width, mode, hr⟩
  · refine ⟨hexpands.range_eq, ⟨rs, last, hcut, hsql, .inl hnone⟩, fun policy hpolicy => ?_⟩
    rw [hnone.2] at hpolicy
    cases hpolicy
  · refine ⟨hexpands.range_eq, ⟨rs, last, hcut, hsql, .inr ?_⟩, fun _ _ => ?_⟩
    · exact ⟨before, r, after, hrs, hnames, ⟨column, width, mode, hr⟩, hr.wholeSeconds⟩
    · exact ⟨hr.bucketUsed, hr.wholeSeconds⟩

/-- A query by the hour. -/
def byHour : String := "SELECT $__timeGroup( t , '1h', Previous) FROM r WHERE $__timeFilter(t)"

/-- The context after the query by the hour over the first minute of 1970. -/
def firstMinuteByHour : ExpansionContext :=
  { firstMinute with interval := Span.ofSeconds 3600, fill := some .previous, bucketUsed := true }

theorem expand_context_agrees_byHour :
    ∃ sql, expand .snowflake firstMinute byHour = .ok (sql, firstMinuteByHour) ∧
      ∃ (rs : List Replacement) (last : List Char),
        Cut byHour.toList (rs.map (·.toPassage)) last ∧ sql.toList = Replacement.output rs last ∧
          ∃ before r after, rs = before ++ r :: after ∧
            ∃ column width mode, r.Groups .snowflake firstMinuteByHour column width mode := by
  have hcut : Cut byHour.toList
      [⟨"SELECT ".toList, ⟨"__timeGroup".toList, " t , '1h', Previous".toList⟩⟩,
        ⟨" FROM r WHERE ".toList, ⟨"__timeFilter".toList, "t".toList⟩⟩] [] :=
    cut_iff.mpr (by decide +kernel)
  have hgroup : expandCall .snowflake firstMinute
      ⟨"__timeGroup".toList, " t , '1h', Previous".toList⟩ =
        .ok (Dialect.snowflake.timeBucket "t" 3600, firstMinuteByHour) := by rfl
  have hfilter : expandCall .snowflake firstMinuteByHour ⟨"__timeFilter".toList, "t".toList⟩ =
      .ok (Dialect.snowflake.timeFilter "t" firstMinute.range, firstMinuteByHour) := by rfl
  obtain ⟨sql, hexpand⟩ : ∃ sql,
      expand .snowflake firstMinute byHour = .ok (sql, firstMinuteByHour) :=
    ⟨_, expand_eq_ok_iff.mpr ⟨[⟨_, _⟩, ⟨_, _⟩], [], hcut,
      .cons hgroup (.cons hfilter (.nil _)), String.toList_ofList⟩⟩
  obtain ⟨-, ⟨rs, last, hcut, hsql, hcases⟩, -⟩ := expand_context_agrees _ _ _ _ _ _ hexpand
  refine ⟨sql, hexpand, rs, last, hcut, hsql, ?_⟩
  rcases hcases with ⟨-, hfresh⟩ | ⟨before, r, after, hrs, -, hr, -⟩
  · cases hfresh
  · exact ⟨before, r, after, hrs, hr⟩

end Expansion

end SeriesQuery
