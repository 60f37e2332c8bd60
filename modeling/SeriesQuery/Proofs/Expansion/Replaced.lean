import SeriesQuery.Proofs.Expansion.Calls
import SeriesQuery.Proofs.Expansion.Context
import SeriesQuery.Proofs.Time.Order

/-!
# What stands in the place of calls

An expansion replaces the calls of a text and leaves everything else as it is
(`expand_replaces_calls`).  The fragment in the place of a call is that of the macro it names
(`Call.StandsFor`): it depends on the arguments and on the range of the context, and on nothing
else that is in the text or that the context holds.

The contexts that the calls are expanded with form a chain (`Expands`), and `expand_eq_ok_iff`
says that an expansion is such a chain over the calls that the text is cut at.
-/

namespace SeriesQuery

/-- What a call stands for in a dialect, by its name, its arguments and a range. -/
inductive Call.StandsFor (call : Call) (d : Dialect) (range : TimeRange) : String → Prop where
  | column {column : List Char} (name : call.name = "__time".toList)
      (arguments : Arguments.ofText call.arguments = [column]) :
      StandsFor call d range (d.timeColumn (String.ofList column))
  | rangeStart (name : call.name = "__timeFrom".toList)
      (arguments : Arguments.ofText call.arguments = []) :
      StandsFor call d range (d.timestampLiteral range.start)
  | rangeStop (name : call.name = "__timeTo".toList)
      (arguments : Arguments.ofText call.arguments = []) :
      StandsFor call d range (d.timestampLiteral range.stop)
  | filter {column : List Char} (name : call.name = "__timeFilter".toList)
      (arguments : Arguments.ofText call.arguments = [column]) :
      StandsFor call d range (d.timeFilter (String.ofList column) range)
  /-- A mode for filling, which may follow, is not in the fragment. -/
  | bucket {column width : List Char} {mode : Option (List Char)} {span : Span}
      (name : call.name = "__timeGroup".toList)
      (arguments : Arguments.ofText call.arguments = column :: width :: mode.toList)
      (width_eq : Expansion.readWidth width = .ok span) :
      StandsFor call d range (d.timeBucket (String.ofList column) span.seconds)

/-- A passage with the fragment that replaces its call. -/
structure Replacement extends Passage where
  fragment : String

namespace Replacement

/-- The text of passages with the fragments in the place of the calls, and some text behind
them. -/
def output (rs : List Replacement) (last : List Char) : List Char :=
  (rs.flatMap fun r => r.text ++ r.fragment.toList) ++ last

theorem output_cons (r : Replacement) (rs : List Replacement) (last : List Char) :
    output (r :: rs) last = r.text ++ (r.fragment.toList ++ output rs last) := by
  simp [output]

end Replacement

namespace Expansion

variable {d : Dialect} {ctx ctx' : ExpansionContext}

/-! ## One call -/

theorem bucket_arguments {args : List (List Char)}
    (h : TimeMacro.bucket.takes args.length = true) :
    ∃ column width, ∃ mode : Option (List Char), args = column :: width :: mode.toList := by
  match args, h with
  | [column, width], _ => exact ⟨column, width, none, rfl⟩
  | [column, width, mode], _ => exact ⟨column, width, some mode, rfl⟩

theorem standsFor_of_expandCall {call : Call} {text : String}
    (h : expandCall d ctx call = .ok (text, ctx')) : call.StandsFor d ctx.range text := by
  obtain ⟨m, hname, htakes, hfragment⟩ := expandCall_eq_ok h
  replace hname := TimeMacro.ofName?_eq_some_iff.mp hname
  generalize hargs : Arguments.ofText call.arguments = args at htakes hfragment
  cases m with
  | column =>
    match args, htakes with
    | [column], _ =>
      cases hfragment
      exact .column hname hargs
  | rangeStart =>
    match args, htakes with
    | [], _ =>
      cases hfragment
      exact .rangeStart hname hargs
  | rangeStop =>
    match args, htakes with
    | [], _ =>
      cases hfragment
      exact .rangeStop hname hargs
  | filter =>
    match args, htakes with
    | [column], _ =>
      cases hfragment
      exact .filter hname hargs
  | bucket =>
    obtain ⟨column, width, mode, rfl⟩ := bucket_arguments htakes
    rcases fragment_cases hfragment with ⟨hne, -⟩ | ⟨-, -, span, fill, hwidth, -, htext, -⟩
    · exact absurd rfl hne
    · rw [htext]
      exact .bucket hname hargs hwidth

/-- The range stays the one that the expansion has started with. -/
theorem range_of_expandCall {call : Call} {text : String}
    (h : expandCall d ctx call = .ok (text, ctx')) : ctx'.range = ctx.range := by
  obtain ⟨m, -, -, hfragment⟩ := expandCall_eq_ok h
  rcases fragment_cases hfragment with ⟨-, rfl⟩ | ⟨-, -, span, fill, -, -, -, rfl⟩
  · rfl
  · rfl

/-! ## The calls of a text -/

/-- The calls are expanded one after the other, each with the context that the one before has
left. -/
inductive Expands (d : Dialect) :
    ExpansionContext → List Replacement → ExpansionContext → Prop where
  | nil (ctx : ExpansionContext) : Expands d ctx [] ctx
  | cons {ctx mid ctx' : ExpansionContext} {r : Replacement} {rs : List Replacement}
      (call : expandCall d ctx r.call = .ok (r.fragment, mid)) (rest : Expands d mid rs ctx') :
      Expands d ctx (r :: rs) ctx'

theorem Expands.range_eq {rs : List Replacement} (h : Expands d ctx rs ctx') :
    ctx'.range = ctx.range := by
  induction h with
  | nil => rfl
  | cons call _ ih => rw [ih, range_of_expandCall call]

theorem Expands.standsFor {rs : List Replacement} (h : Expands d ctx rs ctx') :
    ∀ r ∈ rs, r.call.StandsFor d ctx.range r.fragment := by
  induction h with
  | nil => exact nofun
  | cons call _ ih =>
    intro r hr
    rcases List.mem_cons.mp hr with rfl | hr
    · exact standsFor_of_expandCall call
    · rw [← range_of_expandCall call]
      exact ih r hr

/-- The characters of a text stay, and leave the context as it is. -/
theorem expandPieces_text_iff {text : List Char} {pieces : List Piece} {sql : List Char} :
    expandPieces d ctx (text.map .char ++ pieces) = .ok (sql, ctx') ↔
      ∃ rest, expandPieces d ctx pieces = .ok (rest, ctx') ∧ sql = text ++ rest := by
  induction text generalizing sql with
  | nil => simp
  | cons c text ih =>
    simp only [List.map_cons, List.cons_append, expandPieces_char_iff, ih]
    constructor
    · rintro ⟨-, ⟨rest, hrest, rfl⟩, rfl⟩
      exact ⟨rest, hrest, rfl⟩
    · rintro ⟨rest, hrest, rfl⟩
      exact ⟨_, ⟨rest, hrest, rfl⟩, rfl⟩

theorem expandPieces_pieces_iff {passages : List Passage} {last sql : List Char} :
    expandPieces d ctx (Passage.pieces passages last) = .ok (sql, ctx') ↔
      ∃ rs : List Replacement, rs.map (·.toPassage) = passages ∧ Expands d ctx rs ctx' ∧
        sql = Replacement.output rs last := by
  induction passages generalizing ctx sql with
  | nil =>
    show expandPieces d ctx (last.map .char) = _ ↔ _
    rw [← List.append_nil (last.map Piece.char), expandPieces_text_iff]
    constructor
    · rintro ⟨rest, hrest, rfl⟩
      cases hrest
      exact ⟨[], rfl, .nil _, List.append_nil last⟩
    · rintro ⟨rs, hrs, hexpands, rfl⟩
      rw [List.map_eq_nil_iff.mp hrs] at hexpands ⊢
      cases hexpands
      exact ⟨[], rfl, (List.append_nil last).symm⟩
  | cons p passages ih =>
    simp only [Passage.pieces_cons, expandPieces_text_iff, expandPieces_call_iff, ih]
    constructor
    · rintro ⟨-, ⟨fragment, mid, -, hcall, ⟨rs, rfl, hrest, rfl⟩, rfl⟩, rfl⟩
      exact ⟨⟨p, fragment⟩ :: rs, rfl, .cons hcall hrest,
        (Replacement.output_cons ⟨p, fragment⟩ rs last).symm⟩
    · rintro ⟨rs, hrs, hexpands, rfl⟩
      obtain ⟨r, rs, rfl, rfl, rfl⟩ := List.map_eq_cons_iff.mp hrs
      cases hexpands with
      | cons hcall hrest =>
        exact ⟨_, ⟨r.fragment, _, _, hcall, ⟨rs, rfl, hrest, rfl⟩, rfl⟩,
          Replacement.output_cons r rs last⟩

theorem expand_eq_ok_iff_pieces {raw sql : String} :
    expand d ctx raw = .ok (sql, ctx') ↔
      expandPieces d ctx (Piece.ofText raw.toList) = .ok (sql.toList, ctx') := by
  rw [expand]
  cases expandPieces d ctx (Piece.ofText raw.toList) with
  | error e => exact ⟨nofun, nofun⟩
  | ok r =>
    have hsql : String.ofList r.1 = sql ↔ r.1 = sql.toList := by
      rw [← String.toList_inj, String.toList_ofList]
    show Except.ok (String.ofList r.1, r.2) = _ ↔ _
    rw [Except.ok.injEq, Except.ok.injEq, Prod.mk.injEq, Prod.ext_iff, hsql]

/-- An expansion cuts the text at its calls and expands these, so that it puts a fragment in the
place of each. -/
theorem expand_eq_ok_iff {raw sql : String} :
    expand d ctx raw = .ok (sql, ctx') ↔
      ∃ (rs : List Replacement) (last : List Char),
        Cut raw.toList (rs.map (·.toPassage)) last ∧ Expands d ctx rs ctx' ∧
          sql.toList = Replacement.output rs last := by
  rw [expand_eq_ok_iff_pieces]
  constructor
  · intro h
    have hcut := Passage.cut_ofText raw.toList
    rw [hcut.ofText_eq, expandPieces_pieces_iff] at h
    obtain ⟨rs, hrs, hexpands, hsql⟩ := h
    rw [← hrs] at hcut
    exact ⟨rs, _, hcut, hexpands, hsql⟩
  · rintro ⟨rs, last, hcut, hexpands, hsql⟩
    rw [hcut.ofText_eq, expandPieces_pieces_iff]
    exact ⟨rs, rfl, hexpands, hsql⟩

/-- An expansion replaces the calls of a text and nothing else.  They are the leftmost ones that
do not overlap, and each is replaced by what it stands for in the dialect.  A text in which no
call begins comes back. -/
theorem expand_replaces_calls (d : Dialect) (ctx : ExpansionContext) (raw : String) :
    (∀ sql ctx', expand d ctx raw = .ok (sql, ctx') →
      ∃ (rs : List Replacement) (last : List Char),
        Cut raw.toList (rs.map (·.toPassage)) last ∧
          (∀ passages last', Cut raw.toList passages last' →
            passages = rs.map (·.toPassage) ∧ last' = last) ∧
          (∀ r ∈ rs, r.call.StandsFor d ctx.range r.fragment) ∧
          sql.toList = Replacement.output rs last) ∧
      (Passage.Free raw.toList [] → expand d ctx raw = .ok (raw, ctx)) := by
  constructor
  · intro sql ctx' h
    obtain ⟨rs, last, hcut, hexpands, hsql⟩ := expand_eq_ok_iff.mp h
    refine ⟨rs, last, hcut, fun passages last' hcut' => ?_, hexpands.standsFor, hsql⟩
    have heq := (cut_iff.mp hcut').symm.trans (cut_iff.mp hcut)
    exact ⟨congrArg Prod.fst heq, congrArg Prod.snd heq⟩
  · intro hfree
    exact expand_eq_ok_iff.mpr ⟨[], raw.toList, ⟨rfl, hfree⟩, .nil ctx, rfl⟩

/-- The context of a query over the first minute of 1970. -/
def firstMinute : ExpansionContext := .fresh ⟨.near 0 0, .near 60 0⟩ Span.zero

/-- Two calls among dollar signs: one before a call, one before a number, one in an argument and
one before a name whose parenthesis is not closed. -/
def dollars : String := "$$__timeTo() $5 $__timeFilter(a$b) $__time("

/-- What the text is expanded to over the first minute of 1970. -/
def dollarsExpanded : String :=
  "$TIMESTAMP '1970-01-01T00:01:00Z' $5 a$b BETWEEN TIMESTAMP '1970-01-01T00:00:00Z' " ++
    "AND TIMESTAMP '1970-01-01T00:01:00Z' $__time("

theorem expand_replaces_calls_dollars :
    (∃ (rs : List Replacement) (last : List Char),
      Cut dollars.toList (rs.map (·.toPassage)) last ∧
        (∀ passages last', Cut dollars.toList passages last' →
          passages = rs.map (·.toPassage) ∧ last' = last) ∧
        (∀ r ∈ rs, r.call.StandsFor .dataFusion firstMinute.range r.fragment) ∧
        dollarsExpanded.toList = Replacement.output rs last) ∧
      expand .dataFusion firstMinute "$5 $__time( $" = .ok ("$5 $__time( $", firstMinute) := by
  have hcut : Cut dollars.toList
      [⟨"$".toList, ⟨"__timeTo".toList, []⟩⟩,
        ⟨" $5 ".toList, ⟨"__timeFilter".toList, "a$b".toList⟩⟩]
      " $__time(".toList := cut_iff.mpr (by decide +kernel)
  have hstop : expandCall .dataFusion firstMinute ⟨"__timeTo".toList, []⟩ =
      .ok ("TIMESTAMP '1970-01-01T00:01:00Z'", firstMinute) := by rfl
  have hfilter : expandCall .dataFusion firstMinute ⟨"__timeFilter".toList, "a$b".toList⟩ =
      .ok ("a$b BETWEEN TIMESTAMP '1970-01-01T00:00:00Z' AND " ++
        "TIMESTAMP '1970-01-01T00:01:00Z'", firstMinute) := by rfl
  have hexpand : expand .dataFusion firstMinute dollars = .ok (dollarsExpanded, firstMinute) :=
    expand_eq_ok_iff.mpr ⟨[⟨_, _⟩, ⟨_, _⟩], _, hcut, .cons hstop (.cons hfilter (.nil _)),
      by decide +kernel⟩
  have hnone : Cut "$5 $__time( $".toList [] "$5 $__time( $".toList :=
    cut_iff.mpr (by decide +kernel)
  exact ⟨(expand_replaces_calls .dataFusion firstMinute dollars).1 _ _ hexpand,
    (expand_replaces_calls .dataFusion firstMinute "$5 $__time( $").2 hnone.leftmost⟩

end Expansion

end SeriesQuery
