import SeriesQuery.Command.Run
import SeriesQuery.Proofs.Expansion.Exchanged
import SeriesQuery.Proofs.Time.Described

/-!
# The width that is printed

An expansion on the command line prints the interval that it ends with.  If the query asks for
buckets, this is their width, and what is printed can be put in the place of the width in the
query, with any quotation marks around it.  The query is then expanded as before, and the same is
printed (`printed_width_reads_back`).

What is printed of a width holds neither quotation marks nor commas nor parentheses, and does not
begin or end with a blank (`Span.IsItems`).  So it is one argument of the call, and without the
quotation marks it is read as the width (`readWidth_padded`).
-/

namespace SeriesQuery

open Passage

namespace Span

theorem IsItems.isQuote_eq_false {cs : List Char} (h : IsItems cs) {c : Char} (hc : c ∈ cs) :
    Expansion.isQuote c = false := by
  rw [← Bool.not_eq_true, Expansion.isQuote, Bool.or_eq_true, beq_iff_eq, beq_iff_eq]
  rintro (rfl | rfl)
  · exact h.not_mem (by decide) hc
  · exact h.not_mem (by decide) hc

end Span

open SeriesQuery.Span

namespace Expansion

/-- A text with quotation marks on both sides, any number of single and double ones. -/
def Padded (cs padded : List Char) : Prop :=
  ∃ left right, (∀ c ∈ left, isQuote c = true) ∧ (∀ c ∈ right, isQuote c = true) ∧
    padded = left ++ cs ++ right

variable {cs padded : List Char}

theorem isBlank_of_isQuote {c : Char} (h : isQuote c = true) : Text.isBlank c = false := by
  rw [isQuote, Bool.or_eq_true, beq_iff_eq, beq_iff_eq] at h
  rcases h with rfl | rfl
  · decide
  · decide

/-- A character that is neither in the text nor a quotation mark is not in the padded one. -/
theorem Padded.not_mem (h : Padded cs padded) {c : Char} (hcs : c ∉ cs)
    (hquote : isQuote c = false) : c ∉ padded := by
  obtain ⟨left, right, hleft, hright, rfl⟩ := h
  rw [List.mem_append, List.mem_append]
  rintro ((hmem | hmem) | hmem)
  · cases hquote.symm.trans (hleft c hmem)
  · exact hcs hmem
  · cases hquote.symm.trans (hright c hmem)

theorem Padded.unquote_eq (h : Padded cs padded) (hcs : IsItems cs) : unquote padded = cs := by
  obtain ⟨left, right, hleft, hright, rfl⟩ := h
  refine Text.dropEnds_surrounded hleft hright (fun c hc => ?_) (fun c hc => ?_)
  · exact hcs.isQuote_eq_false (List.mem_of_mem_head? hc)
  · exact hcs.isQuote_eq_false (List.mem_of_mem_getLast? hc)

theorem Padded.trim_eq (h : Padded cs padded) (hcs : IsItems cs) : Text.trim padded = padded := by
  obtain ⟨left, right, hleft, hright, rfl⟩ := h
  refine Text.trim_of_ends (fun c hc => ?_) (fun c hc => ?_)
  · obtain ⟨d, rest, rfl, hd⟩ := hcs.first
    cases left with
    | nil =>
      cases hc
      exact Text.isBlank_of_isDigit hd
    | cons q left =>
      cases hc
      exact isBlank_of_isQuote (hleft c List.mem_cons_self)
  · obtain ⟨rest, d, rfl, hd⟩ := hcs.last
    rcases List.eq_nil_or_concat right with rfl | ⟨right, q, rfl⟩
    · rw [List.append_nil, ← List.append_assoc, List.getLast?_concat] at hc
      cases hc
      exact isBlank_of_isUnitChar hd
    · rw [List.concat_eq_append, ← List.append_assoc, List.getLast?_concat] at hc
      cases hc
      exact isBlank_of_isQuote (hright c (by simp))

/-- A width is read from what is printed of it, with any quotation marks around. -/
theorem readWidth_padded {width : Span} (hwidth : width.IsWidth)
    (h : Padded width.describe.toList padded) : readWidth padded = .ok width := by
  have hseconds : width.seconds ≠ 0 := Nat.one_le_iff_ne_zero.mp hwidth.1
  refine readWidth_eq_ok_iff.mpr ⟨?_, hwidth⟩
  rw [h.unquote_eq (isItems_describe hwidth.2 hseconds)]
  exact read_describe hwidth.2 hseconds

/-- The text of passages where the call of one of them has another width. -/
def pasted (before : List Passage) (p : Passage) (after : List Passage) (last width : List Char) :
    String :=
  String.ofList (source (before ++ ⟨p.text, p.call.withWidth width⟩ :: after) last)

variable {raw : String} {before after : List Passage} {p : Passage} {last : List Char}

/-- A text is expanded as before if the width of its call for buckets is pasted back. -/
theorem expand_pasted {d : Dialect} {ctx ctx' : ExpansionContext} {sql : String}
    (hcut : Cut raw.toList (before ++ p :: after) last)
    (hname : p.call.name = "__timeGroup".toList) (h : expand d ctx raw = .ok (sql, ctx'))
    (hpadded : Padded ctx'.interval.describe.toList padded) (d' : Dialect)
    (start : ExpansionContext) :
    expand d' start (pasted before p after last padded) = expand d' start raw := by
  obtain ⟨column, old, mode, hargs, hold⟩ := width_of_expand hcut hname h
  have hwidth := (readWidth_eq_ok_iff.mp hold).2
  have hread := readWidth_padded hwidth hpadded
  have hitems := isItems_describe hwidth.2 (Nat.one_le_iff_ne_zero.mp hwidth.1)
  have hclosed : ')' ∉ padded := hpadded.not_mem (hitems.not_mem (by decide)) (by decide)
  have hcomma : ',' ∉ padded := hpadded.not_mem (hitems.not_mem (by decide)) (by decide)
  have hcall : p.call.WellFormed :=
    hcut.leftmost.wellFormed p (List.mem_append_right _ List.mem_cons_self)
  have hname' : (p.call.withWidth padded).name = p.call.name := rfl
  have hargs' := Call.ofText_withWidth hargs hcomma (hpadded.trim_eq hitems)
    (ne_nil_of_readWidth hread)
  exact expand_exchange hcut (hcall.withWidth hclosed)
    (expandCall_of_width hname hname' hargs hargs' hold hread d')

/-- Whether a text can be expanded depends neither on the dialect nor on the range and the
interval. -/
theorem exists_expand_fresh {d : Dialect} {range : TimeRange} {interval : Span}
    {r : String × ExpansionContext} (h : expand d (.fresh range interval) raw = .ok r)
    (d' : Dialect) (range' : TimeRange) (interval' : Span) :
    ∃ r', expand d' (.fresh range' interval') raw = .ok r' := by
  cases h' : expand d' (.fresh range' interval') raw with
  | ok r' => exact ⟨r', rfl⟩
  | error e =>
    have hcut := cut_ofText raw.toList
    have hfirst := (expand_eq_error_iff hcut).mp h'
    have herror : expand d (.fresh range interval) raw = .error e :=
      (expand_eq_error_iff hcut).mpr hfirst
    cases herror.symm.trans h

end Expansion

namespace CommandLine

theorem expand_eq_done_iff {a : ExpandArguments} {c : Configuration} {now : Instant}
    {output : String} :
    expand a c now = .done output ↔
      ∃ start sql ctx, (a.stop.getD now).before? usualRange = some start ∧
        Expansion.expand (a.dialect.getD c.dialect)
          (.fresh ⟨a.start.getD start, a.stop.getD now⟩ a.interval) a.query = .ok (sql, ctx) ∧
        output = expansionText sql ctx := by
  rw [expand]
  dsimp only
  constructor
  · intro h
    split at h
    next => cases h
    next start hstart =>
      split at h
      next sql ctx hexpand =>
        cases h
        exact ⟨start, sql, ctx, hstart, hexpand, rfl⟩
      next => split at h <;> cases h
  · rintro ⟨start, sql, ctx, hstart, hexpand, rfl⟩
    rw [hstart]
    dsimp only
    rw [hexpand]

/-- A query that is expanded as another one gives the same outcome. -/
theorem expand_of_query {a : ExpandArguments} {query : String}
    (h : ∀ d ctx, Expansion.expand d ctx query = Expansion.expand d ctx a.query)
    (c : Configuration) (now : Instant) :
    expand { a with query := query } c now = expand a c now := by
  simp only [expand, h]

/-- A width is read from what is printed of it, with any quotation marks around it.  If a query
with a call for buckets is expanded on the command line, the interval that is printed can be
pasted back for the width of the call.  In each dialect, over each range and with each interval
to start with the interval is then the same, and the command prints the same as before. -/
theorem printed_width_reads_back :
    (∀ (width : Span) (padded : List Char), width.IsWidth →
      Expansion.Padded width.describe.toList padded →
        Expansion.readWidth padded = .ok width) ∧
    ∀ (a : ExpandArguments) (c : Configuration) (now : Instant) (output : String),
      expand a c now = .done output →
        ∃ range sql ctx,
          Expansion.expand (a.dialect.getD c.dialect) (.fresh range a.interval) a.query =
            .ok (sql, ctx) ∧
          output = sql ++ "\n-- interval: " ++ ctx.interval.describe ++ "\n-- fill: " ++
            (ctx.fill.map policyText).getD "none" ++ "\n" ∧
          ∀ before p after last, Cut a.query.toList (before ++ p :: after) last →
            p.call.name = "__timeGroup".toList →
              ∀ padded, Expansion.Padded ctx.interval.describe.toList padded →
                (∀ d range' interval', ∃ sql' ctx',
                  Expansion.expand d (.fresh range' interval')
                    (Expansion.pasted before p after last padded) = .ok (sql', ctx') ∧
                  ctx'.interval = ctx.interval) ∧
                expand { a with query := Expansion.pasted before p after last padded } c now =
                  .done output := by
  refine ⟨fun _ _ hwidth hpadded => Expansion.readWidth_padded hwidth hpadded, ?_⟩
  intro a c now output h
  obtain ⟨start, sql, ctx, -, hexpand, houtput⟩ := expand_eq_done_iff.mp h
  refine ⟨_, sql, ctx, hexpand, houtput, fun before p after last hcut hname padded hpadded => ?_⟩
  have hsame := Expansion.expand_pasted hcut hname hexpand hpadded
  refine ⟨fun d range' interval' => ?_, ?_⟩
  · obtain ⟨⟨sql', ctx'⟩, hexpand'⟩ :=
      Expansion.exists_expand_fresh hexpand d range' interval'
    refine ⟨sql', ctx', (hsame d _).trans hexpand', ?_⟩
    obtain ⟨column, width, mode, hargs, hwidth⟩ := Expansion.width_of_expand hcut hname hexpand
    obtain ⟨column', width', mode', hargs', hwidth'⟩ :=
      Expansion.width_of_expand hcut hname hexpand'
    have hsecond : width = width' :=
      (List.cons.inj (List.cons.inj (hargs.symm.trans hargs')).2).1
    rw [hsecond] at hwidth
    exact Except.ok.inj (hwidth'.symm.trans hwidth)
  · rw [expand_of_query hsame, h]

/-- A query by ninety seconds. -/
def byNinetySeconds : ExpandArguments :=
  ⟨"SELECT $__timeGroup(t, 90s, 0) FROM r", none, none, Span.zero, none⟩

/-- The query with the width as it is printed, between two different quotation marks. -/
def byPrintedWidth : ExpandArguments :=
  { byNinetySeconds with query := "SELECT $__timeGroup(t,'1m 30s\x22, 0) FROM r" }

def withoutTables : Configuration := ⟨"localhost:80", .snowflake, Span.ofSeconds 30, []⟩

/-- The greatest width. -/
def widest : Span :=
  ⟨18446744073709551615, 0, Nat.lt_succ_self 18446744073709551615, Span.zero.nanos_lt⟩

/-- The greatest width is read back, and a query with the width that was printed for it prints
the same again. -/
theorem printed_width_reads_back_ninety :
    Expansion.readWidth "\x22'584542046090years 7months 15days 17h 5m 3s'".toList = .ok widest ∧
      ∃ output, expand byNinetySeconds withoutTables (.near 21600 0) = .done output ∧
        expand byPrintedWidth withoutTables (.near 21600 0) = .done output := by
  obtain ⟨hread, hpaste⟩ := printed_width_reads_back
  have hwidest : Expansion.Padded widest.describe.toList
      "\x22'584542046090years 7months 15days 17h 5m 3s'".toList :=
    ⟨['\x22', '\x27'], ['\x27'], by simp [Expansion.isQuote], by simp [Expansion.isQuote],
      by decide +kernel⟩
  refine ⟨hread widest _ ⟨by decide, rfl⟩ hwidest, ?_⟩
  have hcut : Cut byNinetySeconds.query.toList
      ([] ++ ⟨"SELECT ".toList, ⟨"__timeGroup".toList, "t, 90s, 0".toList⟩⟩ :: [])
      " FROM r".toList := cut_iff.mpr (by decide +kernel)
  have hexpand : ∀ range, ∃ sql ctx, Expansion.expand .snowflake (.fresh range Span.zero)
      byNinetySeconds.query = .ok (sql, ctx) ∧ ctx.interval = Span.ofSeconds 90 := by
    intro range
    rw [Expansion.expand, hcut.ofText_eq]
    exact ⟨_, _, rfl, rfl⟩
  obtain ⟨output, hdone⟩ : ∃ output,
      expand byNinetySeconds withoutTables (.near 21600 0) = .done output := by
    obtain ⟨sql, ctx, hctx, -⟩ := hexpand ⟨.near 0 0, .near 21600 0⟩
    have hstart : (Instant.near 21600 0).before? usualRange = some (.near 0 0) := by decide +kernel
    exact ⟨_, expand_eq_done_iff.mpr ⟨_, sql, ctx, hstart, hctx, rfl⟩⟩
  obtain ⟨range, sql, ctx, hctx, -, hsame⟩ := hpaste _ _ _ _ hdone
  obtain ⟨sql', ctx', hctx', hinterval⟩ := hexpand range
  cases hctx.symm.trans hctx'
  have hpadded : Expansion.Padded ctx.interval.describe.toList "'1m 30s\x22".toList := by
    rw [hinterval]
    exact ⟨['\x27'], ['\x22'], by simp [Expansion.isQuote], by simp [Expansion.isQuote],
      by decide +kernel⟩
  have hquery : Expansion.pasted [] ⟨"SELECT ".toList, ⟨"__timeGroup".toList, "t, 90s, 0".toList⟩⟩
      [] " FROM r".toList "'1m 30s\x22".toList = byPrintedWidth.query := by decide +kernel
  have hagain := (hsame [] _ [] _ hcut rfl _ hpadded).2
  rw [hquery] at hagain
  exact ⟨output, hdone, hagain⟩

end CommandLine

end SeriesQuery
