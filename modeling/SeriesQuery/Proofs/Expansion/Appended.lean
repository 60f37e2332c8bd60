import SeriesQuery.Proofs.Expansion.Replaced

/-!
# One text behind another

If no dollar sign follows the last call of a text, then a text behind it is expanded as if it
stood alone, but with the context that the first one has left (`expand_append`).

No call goes over the cut between the two.  One that would begin within a text before a call of
the first one has its closing parenthesis no later than this call has, so it would be there
without the second text as well (`Begins.of_append`).  One that would begin behind the last call
needs a dollar sign there.  So the pieces of the two texts together are those of the first and
then those of the second (`Passage.ofText_source_append`), and pieces are expanded one after the
other (`expandPieces_append`).
-/

namespace SeriesQuery

open Call Passage

/-! ## Calls over the cut -/

namespace Call

/-- Only the last character of a call is a closing parenthesis. -/
theorem WellFormed.exists_render {call : Call} (h : call.WellFormed) :
    ∃ front, call.render = front ++ [')'] ∧ ')' ∉ front := by
  refine ⟨'$' :: call.name ++ '(' :: call.arguments, by simp [render], ?_⟩
  have hname : ')' ∉ call.name := by
    intro hmem
    have hchar := isNameChar_iff.mpr (h.name _ hmem)
    exact absurd hchar (by decide)
  simp [hname, h.arguments]

/-- A call that begins a text with a closing parenthesis does not end behind the text. -/
theorem Begins.of_append {cs behind : List Char} (hclosed : ')' ∈ cs)
    (h : Begins (cs ++ behind)) : Begins cs := by
  obtain ⟨call, after, hcall, htext⟩ := h
  rcases List.append_eq_append_iff.mp htext with ⟨rest, hrender, -⟩ | ⟨rest, hcs, -⟩
  · -- The text is a front part of the call, and has its last character.
    obtain ⟨front, hfront, hopen⟩ := hcall.exists_render
    rcases List.eq_nil_or_concat rest with rfl | ⟨rest, c, rfl⟩
    · exact ⟨call, [], hcall, by rw [hrender, List.append_nil, List.append_nil]⟩
    · have hshort : front = cs ++ rest := by
        rw [hfront, List.concat_eq_append, ← List.append_assoc] at hrender
        exact (List.append_inj' hrender rfl).1
      rw [hshort] at hopen
      exact absurd (List.mem_append_left rest hclosed) hopen
  · exact ⟨call, rest, hcall, hcs⟩

end Call

namespace Passage

theorem Free.append {text mid : List Char} (hclosed : ')' ∈ mid) (h : Free text mid)
    (behind : List Char) : Free text (mid ++ behind) := by
  intro before rest he hne hbegins
  rw [← List.append_assoc] at hbegins
  exact h before rest he hne (hbegins.of_append (List.mem_append_right rest hclosed))

/-- No call begins where there is no dollar sign. -/
theorem free_of_not_mem {text : List Char} (h : '$' ∉ text) (behind : List Char) :
    Free text behind := by
  rintro before (_ | ⟨c, rest⟩) rfl hne hbegins
  · exact hne rfl
  · obtain ⟨call, after, -, htext⟩ := hbegins
    rw [render_append, List.cons_append, List.cons.injEq] at htext
    exact h (by simp [htext.1])

/-- The pieces of passages stay what they are in front of another text. -/
theorem ofText_source_append {passages : List Passage} {last : List Char}
    (h : Leftmost passages last) (hlast : '$' ∉ last) (behind : List Char) :
    Piece.ofText (source passages last ++ behind) =
      pieces passages last ++ Piece.ofText behind := by
  induction passages with
  | nil => exact ofText_append_of_free (free_of_not_mem hlast behind)
  | cons p passages ih =>
    obtain ⟨hcall, hfree, hrest⟩ := h
    have hclosed : ')' ∈ p.call.render ++ source passages last := by simp [render]
    rw [source_cons, List.append_assoc, ofText_append_of_free (hfree.append hclosed behind),
      List.append_assoc, Piece.ofText_render_append hcall, ih hrest, pieces_cons,
      List.append_assoc, List.cons_append]

end Passage

theorem Cut.ofText_append {cs : List Char} {passages : List Passage} {last : List Char}
    (h : Cut cs passages last) (hlast : '$' ∉ last) (behind : List Char) :
    Piece.ofText (cs ++ behind) = Piece.ofText cs ++ Piece.ofText behind := by
  rw [h.ofText_eq, h.source_eq, ofText_source_append h.leftmost hlast]

namespace Expansion

/-! ## Expanding one after the other -/

theorem expandPieces_append (d : Dialect) (ctx : ExpansionContext) (before after : List Piece) :
    expandPieces d ctx (before ++ after) =
      match expandPieces d ctx before with
      | .error e => .error e
      | .ok (sql, mid) =>
        match expandPieces d mid after with
        | .error e => .error e
        | .ok (rest, ctx') => .ok (sql ++ rest, ctx') := by
  induction before generalizing ctx with
  | nil =>
    show expandPieces d ctx after = match expandPieces d ctx after with
      | .error e => .error e
      | .ok (rest, ctx') => .ok (rest, ctx')
    cases expandPieces d ctx after <;> rfl
  | cons piece before ih =>
    cases piece with
    | char c =>
      rw [List.cons_append, expandPieces, expandPieces, ih]
      cases expandPieces d ctx before with
      | error e => rfl
      | ok r =>
        obtain ⟨sql, mid⟩ := r
        dsimp only [bind, Except.bind]
        cases expandPieces d mid after <;> rfl
    | call called =>
      rw [List.cons_append, expandPieces, expandPieces]
      cases expandCall d ctx called with
      | error e => rfl
      | ok r =>
        obtain ⟨text, between⟩ := r
        dsimp only [bind, Except.bind]
        rw [ih]
        cases expandPieces d between before with
        | error e => rfl
        | ok r =>
          obtain ⟨sql, mid⟩ := r
          dsimp only
          cases expandPieces d mid after with
          | error e => rfl
          | ok r => dsimp only; rw [List.append_assoc]

/-- A text behind one without a dollar sign after its last call is expanded with the context that
the first one leaves, and the fragments stand one behind the other.  If the first text cannot be
expanded, the error is its own, and otherwise that of the second. -/
theorem expand_append (d : Dialect) (ctx : ExpansionContext) (a b : String)
    {passages : List Passage} {last : List Char} (hcut : Cut a.toList passages last)
    (hlast : '$' ∉ last) :
    expand d ctx (a ++ b) =
      match expand d ctx a with
      | .error e => .error e
      | .ok (sql, mid) =>
        match expand d mid b with
        | .error e => .error e
        | .ok (rest, ctx') => .ok (sql ++ rest, ctx') := by
  simp only [expand]
  rw [String.toList_append, hcut.ofText_append hlast, expandPieces_append]
  cases expandPieces d ctx (Piece.ofText a.toList) with
  | error e => rfl
  | ok r =>
    obtain ⟨sql, mid⟩ := r
    dsimp only [Except.map]
    cases expandPieces d mid (Piece.ofText b.toList) with
    | error e => rfl
    | ok r => dsimp only; rw [String.ofList_append]

/-- The beginning of a query that asks for buckets. -/
def asksForBuckets : String := "SELECT $__timeGroup(t, 1h) "

/-- An end of a query that asks for buckets as well. -/
def asksAgain : String := "AS g, $__timeGroup(u, 1m)"

/-- Alone the second text can be expanded.  Behind the first one it cannot, because of the context
that this has left. -/
theorem expand_append_secondBucket :
    (∃ passages last, Cut asksForBuckets.toList passages last ∧ '$' ∉ last) ∧
      (∃ sql ctx, expand .snowflake firstMinute asksAgain = .ok (sql, ctx)) ∧
      expand .snowflake firstMinute (asksForBuckets ++ asksAgain) = .error .secondBucket := by
  have hcut : Cut asksForBuckets.toList
      [⟨"SELECT ".toList, ⟨"__timeGroup".toList, "t, 1h".toList⟩⟩] " ".toList :=
    cut_iff.mpr (by decide +kernel)
  have hlast : '$' ∉ " ".toList := by decide
  have hcut' : Cut asksAgain.toList
      [⟨"AS g, ".toList, ⟨"__timeGroup".toList, "u, 1m".toList⟩⟩] [] :=
    cut_iff.mpr (by decide +kernel)
  obtain ⟨sql, mid, hfirst, hused⟩ : ∃ sql mid,
      expand .snowflake firstMinute asksForBuckets = .ok (sql, mid) ∧ mid.bucketUsed = true := by
    rw [expand, hcut.ofText_eq]
    exact ⟨_, _, rfl, rfl⟩
  have hagain : expand .snowflake mid asksAgain = .error .secondBucket := by
    rw [expand, hcut'.ofText_eq]
    obtain ⟨range, interval, fill, used⟩ := mid
    cases hused
    rfl
  refine ⟨⟨_, _, hcut, hlast⟩, ?_, ?_⟩
  · rw [expand, hcut'.ofText_eq]
    exact ⟨_, _, rfl⟩
  · rw [expand_append .snowflake firstMinute asksForBuckets asksAgain hcut hlast, hfirst]
    dsimp only
    rw [hagain]

/-- A dollar sign behind the last call may begin a call that goes on in the second text. -/
example : expand .snowflake firstMinute ("$__timeTo" ++ "()") ≠
    .ok ("$__timeTo" ++ "()", firstMinute) := by
  decide +kernel

end Expansion

end SeriesQuery
