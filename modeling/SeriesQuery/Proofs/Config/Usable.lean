import SeriesQuery.Config.Basic

/-!
# Usable configurations

A configuration is usable if it has an address, a timeout that is not zero, and tables that can
be offered together: all of them have a name and a path, and no two have the same name.
`check_accepts_usable` says that the check accepts these configurations and no others, and that
of any other it reports the first defect.

The tables are checked one after the other, with the names of those before.  A table that has no
defect after these names is passed, and its name is added to them (`checkTables_cases`).  So what
is reported of a list of tables is the defect of one table, and the tables before it can be
offered together.
-/

namespace SeriesQuery

/-- What is wrong with a table after others with the names `earlier`. -/
inductive TableSource.HasDefect (earlier : List String) (t : TableSource) :
    ConfigurationDefect → Prop where
  | noName (name : t.name = "") : HasDefect earlier t .noTableName
  | noPath (name : t.name ≠ "") (path : t.path = "") : HasDefect earlier t (.noTablePath t.name)
  | repeated (name : t.name ≠ "") (path : t.path ≠ "") (taken : t.name ∈ earlier) :
      HasDefect earlier t (.repeatedTable t.name)

/-- Of the names before only their set counts. -/
theorem TableSource.HasDefect.mono {earlier earlier' : List String} {t : TableSource}
    {d : ConfigurationDefect} (h : ∀ name ∈ earlier, name ∈ earlier')
    (hdefect : t.HasDefect earlier d) : t.HasDefect earlier' d := by
  cases hdefect with
  | noName hname => exact .noName hname
  | noPath hname hpath => exact .noPath hname hpath
  | repeated hname hpath htaken => exact .repeated hname hpath (h _ htaken)

/-- A table has one defect at most. -/
theorem TableSource.HasDefect.unique {earlier : List String} {t : TableSource}
    {d d' : ConfigurationDefect} (h : t.HasDefect earlier d) (h' : t.HasDefect earlier d') :
    d = d' := by
  cases h with
  | noName hname =>
    cases h' with
    | noName => rfl
    | noPath hne => exact absurd hname hne
    | repeated hne => exact absurd hname hne
  | noPath hname hpath =>
    cases h' with
    | noName hempty => exact absurd hempty hname
    | noPath => rfl
    | repeated _ hne => exact absurd hpath hne
  | repeated hname hpath =>
    cases h' with
    | noName hempty => exact absurd hempty hname
    | noPath _ hempty => exact absurd hempty hpath
    | repeated => rfl

/-- Tables that can be offered together. -/
structure UsableTables (ts : List TableSource) : Prop where
  name : ∀ t ∈ ts, t.name ≠ ""
  path : ∀ t ∈ ts, t.path ≠ ""
  /-- No two tables have the same name. -/
  distinct : ts.Pairwise fun t u => t.name ≠ u.name

namespace Configuration

/-- A configuration that requests can be served with. -/
structure Usable (c : Configuration) : Prop where
  address : c.address ≠ ""
  timeout : c.timeout ≠ .zero
  tables : UsableTables c.tables

/-- The first defect of a configuration: of its address, of its timeout, or of a table after
others that can be offered together. -/
inductive FirstDefect (c : Configuration) : ConfigurationDefect → Prop where
  | noAddress (address : c.address = "") : FirstDefect c .noAddress
  | noTimeout (address : c.address ≠ "") (timeout : c.timeout = .zero) : FirstDefect c .noTimeout
  | table {before after : List TableSource} {t : TableSource} {d : ConfigurationDefect}
      (address : c.address ≠ "") (timeout : c.timeout ≠ .zero)
      (tables : c.tables = before ++ t :: after) (usable : UsableTables before)
      (defect : t.HasDefect (before.map TableSource.name) d) : FirstDefect c d

/-! ## One table -/

variable {seen : List String} {t : TableSource} {d : ConfigurationDefect}

theorem not_hasDefect (hname : t.name ≠ "") (hpath : t.path ≠ "") (hfresh : t.name ∉ seen) :
    ¬ t.HasDefect seen d := by
  intro h
  cases h with
  | noName hempty => exact hname hempty
  | noPath _ hempty => exact hpath hempty
  | repeated _ _ htaken => exact hfresh htaken

/-- A table has a defect, which is reported, or it has none and is passed. -/
theorem checkTables_cases (seen : List String) (t : TableSource) :
    (∃ d, t.HasDefect seen d ∧ ∀ ts, checkTables seen (t :: ts) = .error d) ∨
      (t.name ≠ "" ∧ t.path ≠ "" ∧ t.name ∉ seen) ∧
        ∀ ts, checkTables seen (t :: ts) = checkTables (t.name :: seen) ts := by
  by_cases hname : t.name = ""
  · exact .inl ⟨_, .noName hname, fun ts => if_pos hname⟩
  by_cases hpath : t.path = ""
  · exact .inl ⟨_, .noPath hname hpath, fun ts => (if_neg hname).trans (if_pos hpath)⟩
  by_cases htaken : t.name ∈ seen
  · exact .inl ⟨_, .repeated hname hpath htaken,
      fun ts => (if_neg hname).trans ((if_neg hpath).trans (if_pos htaken))⟩
  · exact .inr ⟨⟨hname, hpath, htaken⟩,
      fun ts => (if_neg hname).trans ((if_neg hpath).trans (if_neg htaken))⟩

/-- The words for the defect of a table quote its name, if it has one. -/
theorem quotes_name (h : t.HasDefect seen d) (hname : t.name ≠ "") :
    ∃ front back, d.message = front ++ "'" ++ t.name ++ "'" ++ back := by
  cases h with
  | noName hempty => exact absurd hempty hname
  | noPath =>
    have hopen : "Path of table '" = "Path of table " ++ "'" := by decide
    have hclose : "' cannot be empty" = "'" ++ " cannot be empty" := by decide
    refine ⟨"Path of table ", " cannot be empty", ?_⟩
    show "Path of table '" ++ t.name ++ "' cannot be empty" = _
    rw [hopen, hclose, ← String.append_assoc]
  | repeated =>
    have hopen : "Table '" = "Table " ++ "'" := by decide
    have hclose : "' is configured more than once" = "'" ++ " is configured more than once" := by
      decide
    refine ⟨"Table ", " is configured more than once", ?_⟩
    show "Table '" ++ t.name ++ "' is configured more than once" = _
    rw [hopen, hclose, ← String.append_assoc]

/-! ## All tables -/

/-- Tables are accepted if they can be offered together and have none of the names before. -/
theorem checkTables_eq_ok_iff {ts : List TableSource} :
    checkTables seen ts = .ok () ↔ UsableTables ts ∧ ∀ t ∈ ts, t.name ∉ seen := by
  induction ts generalizing seen with
  | nil =>
    refine iff_of_true rfl ⟨⟨nofun, nofun, .nil⟩, nofun⟩
  | cons t ts ih =>
    rcases checkTables_cases seen t with ⟨d, hdefect, hcheck⟩ | ⟨⟨hname, hpath, hfresh⟩, hcheck⟩
    · rw [hcheck]
      refine iff_of_false nofun ?_
      rintro ⟨husable, hfresh⟩
      exact not_hasDefect (husable.name t List.mem_cons_self) (husable.path t List.mem_cons_self)
        (hfresh t List.mem_cons_self) hdefect
    · rw [hcheck, ih]
      constructor
      · rintro ⟨husable, hrest⟩
        refine ⟨⟨?_, ?_, ?_⟩, ?_⟩
        · exact List.forall_mem_cons.mpr ⟨hname, husable.name⟩
        · exact List.forall_mem_cons.mpr ⟨hpath, husable.path⟩
        · exact .cons (fun u hu he => hrest u hu (he ▸ List.mem_cons_self)) husable.distinct
        · exact List.forall_mem_cons.mpr
            ⟨hfresh, fun u hu hmem => hrest u hu (List.mem_cons_of_mem _ hmem)⟩
      · rintro ⟨husable, hrest⟩
        obtain ⟨hne, hdistinct⟩ := List.pairwise_cons.mp husable.distinct
        refine ⟨⟨fun u hu => husable.name u (List.mem_cons_of_mem _ hu),
          fun u hu => husable.path u (List.mem_cons_of_mem _ hu), hdistinct⟩, fun u hu hmem => ?_⟩
        rcases List.mem_cons.mp hmem with he | hmem
        · exact hne u hu he.symm
        · exact hrest u (List.mem_cons_of_mem _ hu) hmem

theorem checkTables_nil_eq_ok_iff {ts : List TableSource} :
    checkTables [] ts = .ok () ↔ UsableTables ts := by
  rw [checkTables_eq_ok_iff]
  exact and_iff_left fun t _ => List.not_mem_nil

/-- What is reported of tables is the defect of one of them after those that are passed. -/
theorem checkTables_eq_error_iff {ts : List TableSource} :
    checkTables seen ts = .error d ↔ ∃ before t after, ts = before ++ t :: after ∧
      checkTables seen before = .ok () ∧
        t.HasDefect (seen ++ before.map TableSource.name) d := by
  induction ts generalizing seen with
  | nil =>
    refine iff_of_false nofun ?_
    rintro ⟨before, t, after, h, -⟩
    exact List.append_ne_nil_of_right_ne_nil before (List.cons_ne_nil t after) h.symm
  | cons u ts ih =>
    rcases checkTables_cases seen u with ⟨d', hdefect, hcheck⟩ | ⟨⟨hname, hpath, hfresh⟩, hcheck⟩
    · rw [hcheck, Except.error.injEq]
      constructor
      · rintro rfl
        exact ⟨[], u, ts, rfl, rfl, by simpa using hdefect⟩
      · rintro ⟨_ | ⟨v, before⟩, t, after, hsplit, hbefore, ht⟩
        · cases hsplit
          rw [List.map_nil, List.append_nil] at ht
          exact hdefect.unique ht
        · cases hsplit
          rw [hcheck] at hbefore
          cases hbefore
    · have hnames : ∀ (before : List TableSource) (t : TableSource),
          t.HasDefect (u.name :: seen ++ before.map TableSource.name) d ↔
            t.HasDefect (seen ++ (u :: before).map TableSource.name) d := by
        intro before t
        have hsame : ∀ name, name ∈ u.name :: seen ++ before.map TableSource.name ↔
            name ∈ seen ++ (u :: before).map TableSource.name := by
          intro name
          simp only [List.cons_append, List.map_cons, List.mem_cons, List.mem_append]
          exact or_left_comm
        exact ⟨.mono fun name => (hsame name).mp, .mono fun name => (hsame name).mpr⟩
      rw [hcheck, ih]
      constructor
      · rintro ⟨before, t, after, rfl, hbefore, ht⟩
        exact ⟨u :: before, t, after, rfl, (hcheck before).trans hbefore, (hnames before t).mp ht⟩
      · rintro ⟨_ | ⟨v, before⟩, t, after, hsplit, hbefore, ht⟩
        · cases hsplit
          rw [List.map_nil, List.append_nil] at ht
          exact absurd ht (not_hasDefect hname hpath hfresh)
        · cases hsplit
          exact ⟨before, t, after, rfl, (hcheck before).symm.trans hbefore, (hnames before t).mpr ht⟩

/-! ## The configuration -/

theorem isZero_iff {s : Span} : s.isZero = true ↔ s = .zero := by
  obtain ⟨seconds, nanos, hseconds, hnanos⟩ := s
  rw [Span.isZero, Bool.and_eq_true, beq_iff_eq, beq_iff_eq, Span.zero, Span.mk.injEq]

theorem check_eq_ok_iff {c : Configuration} : c.check = .ok () ↔ c.Usable := by
  rw [check]
  by_cases haddress : c.address = ""
  · rw [if_pos haddress]
    exact iff_of_false nofun fun h => h.address haddress
  rw [if_neg haddress]
  by_cases htimeout : c.timeout = .zero
  · rw [if_pos (isZero_iff.mpr htimeout)]
    exact iff_of_false nofun fun h => h.timeout htimeout
  rw [if_neg fun h => htimeout (isZero_iff.mp h), checkTables_nil_eq_ok_iff]
  exact ⟨fun h => ⟨haddress, htimeout, h⟩, Usable.tables⟩

theorem check_eq_error_iff {c : Configuration} : c.check = .error d ↔ c.FirstDefect d := by
  rw [check]
  by_cases haddress : c.address = ""
  · rw [if_pos haddress, Except.error.injEq]
    constructor
    · rintro rfl
      exact .noAddress haddress
    · rintro (- | ⟨hne, -⟩ | ⟨hne, -⟩)
      · rfl
      · exact absurd haddress hne
      · exact absurd haddress hne
  rw [if_neg haddress]
  by_cases htimeout : c.timeout = .zero
  · rw [if_pos (isZero_iff.mpr htimeout), Except.error.injEq]
    constructor
    · rintro rfl
      exact .noTimeout haddress htimeout
    · rintro (hempty | - | ⟨-, hne, -⟩)
      · exact absurd hempty haddress
      · rfl
      · exact absurd htimeout hne
  rw [if_neg fun h => htimeout (isZero_iff.mp h), checkTables_eq_error_iff]
  simp only [checkTables_nil_eq_ok_iff, List.nil_append]
  constructor
  · rintro ⟨before, t, after, htables, hbefore, ht⟩
    exact .table haddress htimeout htables hbefore ht
  · rintro (hempty | ⟨-, hzero⟩ | ⟨-, -, htables, hbefore, ht⟩)
    · exact absurd hempty haddress
    · exact absurd hzero htimeout
    · exact ⟨_, _, _, htables, hbefore, ht⟩

/-- The check accepts exactly the usable configurations.  Of any other it reports the first
defect: of the address, of the timeout, and then table by table of the name, of the path and of a
name that an earlier table has.  The words for the defect of a table quote the name of the
table. -/
theorem check_accepts_usable (c : Configuration) :
    (c.check = .ok () ↔ c.Usable) ∧ (∀ d, c.check = .error d ↔ c.FirstDefect d) ∧
      ∀ (earlier : List String) (t : TableSource) (d : ConfigurationDefect),
        t.HasDefect earlier d → t.name ≠ "" →
          ∃ front back, d.message = front ++ "'" ++ t.name ++ "'" ++ back :=
  ⟨check_eq_ok_iff, fun _ => check_eq_error_iff, fun _ _ _ => quotes_name⟩

/-- Three tables, of which the second has no path and the third has the name of the first. -/
def threeTables : Configuration :=
  ⟨"localhost:80", .snowflake, Span.ofSeconds 30,
    [⟨"cpu", "cpu.csv", .csv⟩, ⟨"mem", "", .csv⟩, ⟨"cpu", "all.csv", .parquet⟩]⟩

/-- The path of the second table is the first defect, and the words for it quote its name. -/
theorem check_accepts_usable_threeTables :
    threeTables.FirstDefect (.noTablePath "mem") ∧
      ∃ front back, (ConfigurationDefect.noTablePath "mem").message =
        front ++ "'" ++ "mem" ++ "'" ++ back := by
  obtain ⟨-, hreports, hquotes⟩ := check_accepts_usable threeTables
  have hmem : TableSource.HasDefect ["cpu"] ⟨"mem", "", .csv⟩ (.noTablePath "mem") :=
    .noPath (by decide) rfl
  have hfirst : threeTables.check = .error (.noTablePath "mem") := rfl
  have hquoted := hquotes ["cpu"] ⟨"mem", "", .csv⟩ (.noTablePath "mem") hmem (by decide)
  exact ⟨(hreports _).mp hfirst, hquoted⟩

end Configuration

end SeriesQuery
