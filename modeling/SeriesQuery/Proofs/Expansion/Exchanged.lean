import SeriesQuery.Proofs.Expansion.Appended
import SeriesQuery.Proofs.Expansion.IllFormed

/-!
# A call in the place of another

If one call of a text is exchanged for another one, the text is cut at the same places
(`Cut.exchange`).  A call that would begin within a text before it needs nothing of what stands
there but a closing parenthesis (`Begins.exchange`).  If the new call is expanded as the old one
was, so is the whole text (`expand_exchange`).

The call for buckets is expanded by its name, its column, its width as it is read and its mode.
So another text for the same width changes nothing (`expandCall_withWidth`), and the width that
was read is the interval that the expansion ends with (`width_of_expand`).
-/

namespace SeriesQuery

open Call Passage

/-! ## The same places -/

namespace Call

/-- In front of a dollar sign, a name and its opening parenthesis stand as a whole. -/
theorem WellFormed.exists_opened {call : Call} (hcall : call.WellFormed)
    {rest cs behind : List Char} (h : rest ++ '$' :: cs = call.name ++ '(' :: behind) :
    ∃ opened, rest = call.name ++ '(' :: opened := by
  have hname : '$' ∉ call.name ++ ['('] := by
    intro hmem
    rcases List.mem_append.mp hmem with hmem | hmem
    · exact absurd (isNameChar_iff.mpr (hcall.name _ hmem)) (by decide)
    · exact absurd hmem (by decide)
  rw [List.append_cons call.name] at h
  rcases List.append_eq_append_iff.mp h with ⟨front, hfront, hdollar⟩ | ⟨opened, hrest, -⟩
  · cases front with
    | nil => exact ⟨[], by rw [hfront, List.append_nil]⟩
    | cons c front =>
      rw [List.cons_append, List.cons.injEq] at hdollar
      rw [hfront, ← hdollar.1] at hname
      exact absurd (List.mem_append_right _ List.mem_cons_self) hname
  · exact ⟨opened, by rw [hrest, ← List.append_cons]⟩

/-- A name behind a dollar sign begins a call if its parenthesis is closed somewhere. -/
theorem WellFormed.begins {call : Call} (hcall : call.WellFormed) {opened : List Char}
    (hclosed : ')' ∈ opened) : Begins ('$' :: (call.name ++ '(' :: opened)) := by
  obtain ⟨arguments, after, rfl, hfirst⟩ := List.eq_append_cons_of_mem hclosed
  refine ⟨⟨call.name, arguments⟩, after, ⟨hcall.name_ne_nil, hcall.name, hfirst⟩, ?_⟩
  rw [render_append]

/-- Whether a call begins in front of a dollar sign does not depend on what stands there, if there
is a closing parenthesis. -/
theorem Begins.exchange {rest cs cs' : List Char} (hne : rest ≠ []) (hclosed : ')' ∈ cs')
    (h : Begins (rest ++ '$' :: cs)) : Begins (rest ++ '$' :: cs') := by
  obtain ⟨call, after, hcall, htext⟩ := h
  obtain ⟨c, rest, rfl⟩ := List.exists_cons_of_ne_nil hne
  rw [render_append, List.cons_append, List.cons.injEq] at htext
  obtain ⟨rfl, htext⟩ := htext
  obtain ⟨opened, rfl⟩ := hcall.exists_opened htext
  rw [List.cons_append, List.append_assoc, List.cons_append]
  exact hcall.begins (List.mem_append_right _ (List.mem_cons_of_mem _ hclosed))

end Call

namespace Passage

theorem Free.exchange {text : List Char} {call call' : Call} {behind behind' : List Char}
    (h : Free text (call.render ++ behind)) : Free text (call'.render ++ behind') := by
  intro before rest he hne hbegins
  rw [render_append] at hbegins
  refine h before rest he hne ?_
  rw [render_append]
  exact hbegins.exchange hne (by simp)

theorem Leftmost.wellFormed {passages : List Passage} {last : List Char}
    (h : Leftmost passages last) : ∀ p ∈ passages, p.call.WellFormed := by
  induction passages with
  | nil => exact nofun
  | cons p passages ih => exact List.forall_mem_cons.mpr ⟨h.1, ih h.2.2⟩

theorem Leftmost.exchange {before after : List Passage} {p : Passage} {last : List Char}
    {call : Call} (hcall : call.WellFormed) (h : Leftmost (before ++ p :: after) last) :
    Leftmost (before ++ ⟨p.text, call⟩ :: after) last := by
  induction before with
  | nil => exact ⟨hcall, h.2.1.exchange, h.2.2⟩
  | cons q before ih => exact ⟨h.1, h.2.1.exchange, ih h.2.2⟩

end Passage

/-- With another call in the place of one, a text is cut at the same places. -/
theorem Cut.exchange {cs : List Char} {before after : List Passage} {p : Passage}
    {last : List Char} {call : Call} (hcall : call.WellFormed)
    (h : Cut cs (before ++ p :: after) last) :
    Cut (source (before ++ ⟨p.text, call⟩ :: after) last) (before ++ ⟨p.text, call⟩ :: after)
      last :=
  ⟨rfl, h.leftmost.exchange hcall⟩

namespace Expansion

variable {d : Dialect} {ctx ctx' : ExpansionContext}

/-- A call that is always expanded as another one can stand in its place. -/
theorem expand_exchange {raw : String} {before after : List Passage} {p : Passage}
    {last : List Char} {call : Call} (hcut : Cut raw.toList (before ++ p :: after) last)
    (hcall : call.WellFormed) (h : ∀ mid, expandCall d mid call = expandCall d mid p.call) :
    expand d ctx (String.ofList (source (before ++ ⟨p.text, call⟩ :: after) last)) =
      expand d ctx raw := by
  have hpieces : ∀ c : Call, pieces (before ++ ⟨p.text, c⟩ :: after) last =
      pieces before p.text ++ .call c :: pieces after last := by simp [pieces]
  rw [expand, expand, String.toList_ofList, (hcut.exchange hcall).ofText_eq, hcut.ofText_eq,
    hpieces call, hpieces p.call, expandPieces_append, expandPieces_append]
  cases expandPieces d ctx (pieces before p.text) with
  | error e => rfl
  | ok r => dsimp only; rw [expandPieces, expandPieces, h]

/-! ## The width of a call -/

theorem Expands.of_append {rs rs' : List Replacement} {r : Replacement}
    (h : Expands d ctx (rs ++ r :: rs') ctx') :
    ∃ mid mid', expandCall d mid r.call = .ok (r.fragment, mid') ∧ Expands d mid' rs' ctx' := by
  induction rs generalizing ctx with
  | nil =>
    cases h with
    | cons call rest => exact ⟨_, _, call, rest⟩
  | cons q rs ih =>
    cases h with
    | cons call rest => exact ih rest

/-- After an expansion with a call for buckets the interval is the width of this call. -/
theorem width_of_expand {raw sql : String} {before after : List Passage} {p : Passage}
    {last : List Char} (hcut : Cut raw.toList (before ++ p :: after) last)
    (hname : p.call.name = "__timeGroup".toList) (h : expand d ctx raw = .ok (sql, ctx')) :
    ∃ column width, ∃ mode : Option (List Char),
      Arguments.ofText p.call.arguments = column :: width :: mode.toList ∧
        readWidth width = .ok ctx'.interval := by
  obtain ⟨rs, last', hcut', hexpands, -⟩ := expand_eq_ok_iff.mp h
  have hsame := congrArg Prod.fst ((cut_iff.mp hcut').symm.trans (cut_iff.mp hcut))
  obtain ⟨rs₁, rs₂, rfl, -, hrs₂⟩ := List.map_eq_append_iff.mp hsame
  obtain ⟨r, rs₃, rfl, rfl, -⟩ := List.map_eq_cons_iff.mp hrs₂
  obtain ⟨mid, mid', hcall, hrest⟩ := hexpands.of_append
  obtain ⟨m, hm, htakes, hfragment⟩ := expandCall_eq_ok hcall
  rw [hname] at hm
  cases hm
  rcases fragment_cases hfragment with ⟨hne, -⟩ | ⟨-, -, width, fill, hwidth, -, -, rfl⟩
  · exact absurd rfl hne
  · obtain ⟨column, text, mode, hargs⟩ := bucket_arguments htakes
    rw [hargs] at hwidth
    obtain ⟨-, rfl⟩ := hrest.of_bucketUsed rfl
    exact ⟨column, text, mode, hargs, hwidth⟩

end Expansion

/-! ## Another text for the width -/

namespace Call

/-- The call with another text for its second argument. -/
def withWidth (call : Call) (width : List Char) : Call :=
  ⟨call.name, Text.joinWith ',' ((Text.splitOn ',' call.arguments).set 1 width)⟩

variable {call : Call} {width : List Char}

theorem WellFormed.withWidth (h : call.WellFormed) (hclosed : ')' ∉ width) :
    (call.withWidth width).WellFormed := by
  refine ⟨h.name_ne_nil, h.name, fun hmem => ?_⟩
  rcases Text.mem_joinWith hmem with hcomma | ⟨p, hp, hc⟩
  · cases hcomma
  · rcases List.mem_or_eq_of_mem_set hp with hp | rfl
    · exact h.arguments (Text.mem_of_mem_splitOn hp hc)
    · exact hclosed hc

/-- Only the second argument is another one. -/
theorem ofText_withWidth {column old : List Char} {rest : List (List Char)}
    (hargs : Arguments.ofText call.arguments = column :: old :: rest) (hcomma : ',' ∉ width)
    (htrim : Text.trim width = width) (hne : width ≠ []) :
    Arguments.ofText (call.withWidth width).arguments = column :: width :: rest := by
  rw [Arguments.ofText] at hargs
  split at hargs
  next => cases hargs
  next =>
    obtain ⟨c, ps, hsplit, rfl, hps⟩ := List.map_eq_cons_iff.mp hargs
    obtain ⟨w, ms, rfl, -, rfl⟩ := List.map_eq_cons_iff.mp hps
    have hpieces : ∀ p ∈ c :: width :: ms, ',' ∉ p := by
      intro p hp
      rcases List.mem_or_eq_of_mem_set (l := c :: w :: ms) (i := 1) hp with hp | rfl
      · rw [← hsplit] at hp
        exact Text.not_mem_of_mem_splitOn hp
      · exact hcomma
    have hblank : Text.trim (Text.joinWith ',' (c :: width :: ms)) ≠ [] := by
      intro hblank
      refine hne (htrim.symm.trans (Text.trim_eq_nil_iff.mpr fun x hx => ?_))
      have hmem : width ∈ c :: width :: ms := List.mem_cons_of_mem _ List.mem_cons_self
      exact Text.trim_eq_nil_iff.mp hblank x (Text.mem_joinWith_of_mem hmem hx)
    rw [withWidth, hsplit]
    show Arguments.ofText (Text.joinWith ',' (c :: width :: ms)) = _
    rw [Arguments.ofText, if_neg hblank, Text.splitOn_joinWith (List.cons_ne_nil _ _) hpieces,
      List.map_cons, List.map_cons, htrim]

end Call

namespace Expansion

theorem ne_nil_of_readWidth {width : List Char} {span : Span} (h : readWidth width = .ok span) :
    width ≠ [] := by
  rintro rfl
  cases h

theorem missing?_bucket {column width : List Char} {rest : List (List Char)} (h : width ≠ []) :
    missing? .bucket (column :: width :: rest) =
      if column = [] then some "time column" else none := by
  obtain ⟨c, width, rfl⟩ := List.exists_cons_of_ne_nil h
  cases column with
  | nil => rfl
  | cons c column =>
    rw [if_neg (List.cons_ne_nil c column), missing?_eq_none_iff]
    simp [TimeMacro.required]

/-- A call for buckets is expanded as before with another text for the same width. -/
theorem expandCall_of_width {call call' : Call} {column old width : List Char}
    {rest : List (List Char)} {span : Span} (hname : call.name = "__timeGroup".toList)
    (hname' : call'.name = call.name)
    (hargs : Arguments.ofText call.arguments = column :: old :: rest)
    (hargs' : Arguments.ofText call'.arguments = column :: width :: rest)
    (hold : readWidth old = .ok span) (hwidth : readWidth width = .ok span)
    (d : Dialect) (ctx : ExpansionContext) :
    expandCall d ctx call' = expandCall d ctx call := by
  have hmacro : TimeMacro.ofName? "__timeGroup".toList = some .bucket := rfl
  have hmissing : missing? .bucket (column :: width :: rest) =
      missing? .bucket (column :: old :: rest) := by
    rw [missing?_bucket (ne_nil_of_readWidth hold), missing?_bucket (ne_nil_of_readWidth hwidth)]
  have hfragment : fragment d ctx .bucket (column :: width :: rest) =
      fragment d ctx .bucket (column :: old :: rest) := by
    rw [fragment, fragment]
    show (if ctx.bucketUsed then _ else readWidth width >>= _) =
      if ctx.bucketUsed then _ else readWidth old >>= _
    rw [hold, hwidth]
    rfl
  rw [expandCall, expandCall, hname', hname, hmacro, hargs, hargs']
  dsimp only
  rw [hmissing, hfragment]
  rfl

end Expansion

end SeriesQuery
