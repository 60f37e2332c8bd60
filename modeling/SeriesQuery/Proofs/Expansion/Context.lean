import SeriesQuery.Expansion.Expand

/-!
# What an expansion does to its context

Only the call for buckets changes the context: it puts its own width in the place of the
interval, and may set a fill mode (`fragment_cases`).  So a fill mode that an expansion ends
with comes from such a call, and the interval beside it is the width of that call
(`expandPieces_cases`).

The interval that an expansion starts with is never looked at.  Two expansions of one text
that start with contexts of different intervals fail with the same error, or give the same
text and contexts that differ in nothing but an interval without a fill mode
(`expand_agree`).
-/

namespace SeriesQuery

/-- A call asks for buckets of a width. -/
structure Call.Buckets (call : Call) (width : Span) : Prop where
  name : TimeMacro.ofName? call.name = some .bucket
  width : Expansion.readWidth ((Arguments.ofText call.arguments).getD 1 []) = .ok width

/-- Contexts that may differ in the interval, but not if gaps are to be filled. -/
structure ExpansionContext.Alike (ctx ctx' : ExpansionContext) : Prop where
  range : ctx'.range = ctx.range
  fill : ctx'.fill = ctx.fill
  bucketUsed : ctx'.bucketUsed = ctx.bucketUsed
  interval : ctx.fill ≠ none → ctx'.interval = ctx.interval

theorem ExpansionContext.alike_fresh (range : TimeRange) (interval interval' : Span) :
    (fresh range interval).Alike (fresh range interval') :=
  ⟨rfl, rfl, rfl, fun h => absurd rfl h⟩

namespace Expansion

variable {d : Dialect} {ctx ctx' : ExpansionContext}

/-- A step that succeeds after another does so from what the other gave. -/
theorem bind_eq_ok {α β : Type} {r : Except ExpansionError α} {k : α → Except ExpansionError β}
    {b : β} (h : r >>= k = .ok b) : ∃ a, r = .ok a ∧ k a = .ok b := by
  cases r with
  | error e => cases h
  | ok a => exact ⟨a, rfl, h⟩

/-! ## The call for buckets -/

/-- The width of buckets is at least a second, without a fraction of one. -/
theorem wholeSeconds_of_readWidth {cs : List Char} {width : Span} (h : readWidth cs = .ok width) :
    width.seconds ≠ 0 ∧ width.nanos = 0 := by
  rw [readWidth] at h
  split at h
  next => cases h
  next =>
    split at h
    next hwhole =>
      cases h
      rwa [Span.isWholeSeconds, Bool.and_eq_true, bne_iff_ne, beq_iff_eq] at hwhole
    next => cases h

/-- A macro leaves the context as it is, unless it is the first one for buckets. -/
theorem fragment_cases {m : TimeMacro} {args : List (List Char)} {text : String}
    (h : fragment d ctx m args = .ok (text, ctx')) :
    (m ≠ .bucket ∧ ctx' = ctx) ∨
      m = .bucket ∧ ctx.bucketUsed = false ∧ ∃ width fill,
        readWidth (args.getD 1 []) = .ok width ∧ readFill (args.drop 2) = .ok fill ∧
          text = d.timeBucket (String.ofList (args.headD [])) width.seconds ∧
            ctx' = { ctx with bucketUsed := true, interval := width, fill := fill.or ctx.fill } := by
  cases m with
  | column =>
    cases h
    exact .inl ⟨nofun, rfl⟩
  | rangeStart =>
    cases h
    exact .inl ⟨nofun, rfl⟩
  | rangeStop =>
    cases h
    exact .inl ⟨nofun, rfl⟩
  | filter =>
    cases h
    exact .inl ⟨nofun, rfl⟩
  | bucket =>
    right
    rw [fragment] at h
    cases hused : ctx.bucketUsed with
    | true =>
      rw [hused] at h
      cases h
    | false =>
      rw [hused, if_neg Bool.false_ne_true] at h
      obtain ⟨width, hwidth, h⟩ := bind_eq_ok h
      obtain ⟨fill, hfill, h⟩ := bind_eq_ok h
      cases h
      exact ⟨rfl, rfl, width, fill, hwidth, hfill, rfl, rfl⟩

/-- A call that is expanded names a macro and has as many arguments as it takes. -/
theorem expandCall_eq_ok {call : Call} {text : String}
    (h : expandCall d ctx call = .ok (text, ctx')) :
    ∃ m, TimeMacro.ofName? call.name = some m ∧
      m.takes (Arguments.ofText call.arguments).length = true ∧
        fragment d ctx m (Arguments.ofText call.arguments) = .ok (text, ctx') := by
  rw [expandCall] at h
  split at h
  next => cases h
  next m hname =>
    split at h
    next htakes =>
      split at h
      next => cases h
      next => exact ⟨m, hname, htakes, h⟩
    next => cases h

/-- A call leaves the context as it is, or asks for buckets of the width that is then the
interval. -/
theorem expandCall_cases {call : Call} {text : String}
    (h : expandCall d ctx call = .ok (text, ctx')) :
    ctx' = ctx ∨ call.Buckets ctx'.interval := by
  obtain ⟨m, hname, -, hfragment⟩ := expandCall_eq_ok h
  rcases fragment_cases hfragment with ⟨-, hctx⟩ | ⟨rfl, -, width, fill, hwidth, -, -, rfl⟩
  · exact .inl hctx
  · exact .inr ⟨hname, hwidth⟩

/-! ## The pieces of a text -/

theorem expandPieces_char_iff {c : Char} {pieces : List Piece} {sql : List Char} :
    expandPieces d ctx (.char c :: pieces) = .ok (sql, ctx') ↔
      ∃ rest, expandPieces d ctx pieces = .ok (rest, ctx') ∧ sql = c :: rest := by
  rw [expandPieces]
  constructor
  · intro h
    obtain ⟨⟨rest, last⟩, hrest, h⟩ := bind_eq_ok h
    cases h
    exact ⟨rest, hrest, rfl⟩
  · rintro ⟨rest, hrest, rfl⟩
    rw [hrest]
    rfl

theorem expandPieces_call_iff {call : Call} {pieces : List Piece} {sql : List Char} :
    expandPieces d ctx (.call call :: pieces) = .ok (sql, ctx') ↔
      ∃ fragment mid rest, expandCall d ctx call = .ok (fragment, mid) ∧
        expandPieces d mid pieces = .ok (rest, ctx') ∧ sql = fragment.toList ++ rest := by
  rw [expandPieces]
  constructor
  · intro h
    obtain ⟨⟨fragment, mid⟩, hcall, h⟩ := bind_eq_ok h
    obtain ⟨⟨rest, last⟩, hrest, h⟩ := bind_eq_ok h
    cases h
    exact ⟨fragment, mid, rest, hcall, hrest, rfl⟩
  · rintro ⟨fragment, mid, rest, hcall, hrest, rfl⟩
    rw [hcall]
    show expandPieces d mid pieces >>= _ = _
    rw [hrest]
    rfl

/-- The context after an expansion is the one before, or a call asked for buckets of the width
that is then the interval. -/
theorem expandPieces_cases {pieces : List Piece} {sql : List Char}
    (h : expandPieces d ctx pieces = .ok (sql, ctx')) :
    ctx' = ctx ∨ ∃ call, .call call ∈ pieces ∧ call.Buckets ctx'.interval := by
  induction pieces generalizing ctx sql with
  | nil =>
    cases h
    exact .inl rfl
  | cons piece pieces ih =>
    cases piece with
    | char c =>
      obtain ⟨rest, hrest, -⟩ := expandPieces_char_iff.mp h
      rcases ih hrest with hctx | ⟨call, hmem, hbuckets⟩
      · exact .inl hctx
      · exact .inr ⟨call, List.mem_cons_of_mem _ hmem, hbuckets⟩
    | call called =>
      obtain ⟨text, mid, rest, hcall, hrest, -⟩ := expandPieces_call_iff.mp h
      rcases ih hrest with rfl | ⟨call, hmem, hbuckets⟩
      · rcases expandCall_cases hcall with hmid | hbuckets
        · exact .inl hmid
        · exact .inr ⟨called, List.mem_cons_self, hbuckets⟩
      · exact .inr ⟨call, List.mem_cons_of_mem _ hmem, hbuckets⟩

/-! ## Two expansions of one text -/

/-- Two expansions fail with the same error, or give the same and contexts that are alike. -/
inductive Agree {α : Type} :
    Except ExpansionError (α × ExpansionContext) →
      Except ExpansionError (α × ExpansionContext) → Prop where
  | error (e : ExpansionError) : Agree (.error e) (.error e)
  | ok (a : α) {ctx ctx' : ExpansionContext} (h : ctx.Alike ctx') :
      Agree (.ok (a, ctx)) (.ok (a, ctx'))

theorem Agree.bind {α β : Type} {r r' : Except ExpansionError (α × ExpansionContext)}
    {k k' : α × ExpansionContext → Except ExpansionError (β × ExpansionContext)}
    (h : Agree r r')
    (hk : ∀ a ctx ctx', ctx.Alike ctx' → Agree (k (a, ctx)) (k' (a, ctx'))) :
    Agree (r >>= k) (r' >>= k') := by
  cases h with
  | error e => exact .error e
  | ok a h => exact hk a _ _ h

theorem Agree.map {α β : Type} {r r' : Except ExpansionError (α × ExpansionContext)}
    (h : Agree r r') (f : α → β) :
    Agree (r.map (Prod.map f id)) (r'.map (Prod.map f id)) := by
  cases h with
  | error e => exact .error e
  | ok a h => exact .ok (f a) h

theorem fragment_agree (h : ctx.Alike ctx') (m : TimeMacro) (args : List (List Char)) :
    Agree (fragment d ctx m args) (fragment d ctx' m args) := by
  cases m with
  | column => exact .ok _ h
  | rangeStart =>
    rw [fragment, fragment, h.range]
    exact .ok _ h
  | rangeStop =>
    rw [fragment, fragment, h.range]
    exact .ok _ h
  | filter =>
    rw [fragment, fragment, h.range]
    exact .ok _ h
  | bucket =>
    rw [fragment, fragment, h.bucketUsed]
    split
    next => exact .error _
    next =>
      cases readWidth (args.getD 1 []) with
      | error e => exact .error e
      | ok width =>
        cases readFill (args.drop 2) with
        | error e => exact .error e
        | ok fill =>
          -- Both contexts take the width of the call, whatever their intervals were.
          exact .ok _ ⟨h.range, congrArg fill.or h.fill, rfl, fun _ => rfl⟩

theorem expandCall_agree (h : ctx.Alike ctx') (call : Call) :
    Agree (expandCall d ctx call) (expandCall d ctx' call) := by
  rw [expandCall, expandCall]
  split
  next => exact .error _
  next m _ =>
    split
    next =>
      split
      next => exact .error _
      next => exact fragment_agree h m _
    next => exact .error _

theorem expandPieces_agree (h : ctx.Alike ctx') (pieces : List Piece) :
    Agree (expandPieces d ctx pieces) (expandPieces d ctx' pieces) := by
  induction pieces generalizing ctx ctx' with
  | nil => exact .ok _ h
  | cons piece pieces ih =>
    cases piece with
    | char c =>
      rw [expandPieces, expandPieces]
      exact (ih h).bind fun sql _ _ h => .ok (c :: sql) h
    | call called =>
      rw [expandPieces, expandPieces]
      refine (expandCall_agree h called).bind fun text _ _ h => ?_
      exact (ih h).bind fun sql _ _ h => .ok (text.toList ++ sql) h

/-- The interval that an expansion starts with does not matter. -/
theorem expand_agree (h : ctx.Alike ctx') (raw : String) :
    Agree (expand d ctx raw) (expand d ctx' raw) := by
  exact (expandPieces_agree h (Piece.ofText raw.toList)).map String.ofList

end Expansion

end SeriesQuery
