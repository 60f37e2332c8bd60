import SeriesQuery.Proofs.Expansion.ContextAfter
import SeriesQuery.Proofs.Number.Numeral
import SeriesQuery.Query.Error

/-!
# Ill-formed calls

A text cannot be expanded exactly if one of its calls is ill-formed, and the error is that of the
leftmost one (`expand_refuses_leftmost`).  What is wrong with a call is told by the call alone and
by whether buckets have been asked for before it (`Call.IllFormed`).  Its parts are looked at in
the order of the constructors there, and each constructor says that nothing is wrong with the
parts before.

One call is like its definition (`expandCall_eq_error_iff`), and a text fails as the first of its
calls that does (`expandPieces_eq_error_iff`).

One of the errors never gets out as an error.  A width with a full second of nanoseconds beside
the greatest number of seconds is a fault of the query (`expand_faults_full_second`).
-/

namespace SeriesQuery

/-! ## The parts of a call -/

/-- A word for a policy or a numeral. -/
def FillPolicy.IsMode (cs : List Char) : Prop :=
  Numeral.lower cs = "null".toList ∨ Numeral.lower cs = "previous".toList ∨ Numeral.IsNumeral cs

/-- A whole number of seconds, at least one. -/
def Span.IsWidth (width : Span) : Prop := 1 ≤ width.seconds ∧ width.nanos = 0

namespace Call

/-- A call names a macro and has as many arguments as it takes. -/
structure Counted (call : Call) (m : TimeMacro) : Prop where
  name : call.name = m.name.toList
  least : m.required.length ≤ (Arguments.ofText call.arguments).length
  most : (Arguments.ofText call.arguments).length ≤ m.required.length + m.optional

/-- None of the arguments that the macro requires is empty. -/
structure Complete (call : Call) (m : TimeMacro) : Prop extends call.Counted m where
  required : [] ∉ (Arguments.ofText call.arguments).take m.required.length

/-- Something is wrong with a call, where buckets may have been asked for before. -/
inductive IllFormed (call : Call) (asked : Prop) : ExpansionError → Prop where
  | unknownName (h : ∀ m : TimeMacro, call.name ≠ m.name.toList) :
      IllFormed call asked (.unknownName (String.ofList call.name))
  | arity {m : TimeMacro} (name : call.name = m.name.toList) (h : ¬ call.Counted m) :
      IllFormed call asked (.arity m (Arguments.ofText call.arguments).length)
  /-- The first empty argument is a required one. -/
  | missingArgument {m : TimeMacro} {before after : List (List Char)} {argument : String}
      (counted : call.Counted m)
      (arguments : Arguments.ofText call.arguments = before ++ [] :: after)
      (first : [] ∉ before) (h : m.required[before.length]? = some argument) :
      IllFormed call asked (.missingArgument m argument)
  | secondBucket (complete : call.Complete .bucket) (h : asked) :
      IllFormed call asked .secondBucket
  | unreadableWidth {column width : List Char} {mode : Option (List Char)} {reason : Span.ReadError}
      (complete : call.Complete .bucket) (first : ¬ asked)
      (arguments : Arguments.ofText call.arguments = column :: width :: mode.toList)
      (h : Span.read (Expansion.unquote width) = .error reason) :
      IllFormed call asked (.invalidWidth (String.ofList width) (.unreadable reason))
  | notWholeSeconds {column width : List Char} {mode : Option (List Char)} {span : Span}
      (complete : call.Complete .bucket) (first : ¬ asked)
      (arguments : Arguments.ofText call.arguments = column :: width :: mode.toList)
      (reads : Span.read (Expansion.unquote width) = .ok span) (h : ¬ span.IsWidth) :
      IllFormed call asked (.invalidWidth (String.ofList width) .notWholeSeconds)
  | invalidFill {column width mode : List Char} {span : Span}
      (complete : call.Complete .bucket) (first : ¬ asked)
      (arguments : Arguments.ofText call.arguments = [column, width, mode])
      (reads : Span.read (Expansion.unquote width) = .ok span) (isWidth : span.IsWidth)
      (h : ¬ FillPolicy.IsMode mode) :
      IllFormed call asked (.invalidFill (String.ofList mode))

end Call

namespace Passage

/-- Buckets have been asked for at the start or by one of the calls. -/
def Asked (asked : Prop) (passages : List Passage) : Prop :=
  asked ∨ ∃ p ∈ passages, p.call.name = "__timeGroup".toList

/-- Something is wrong with the call of a passage, given the passages before. -/
def IllFormedAfter (asked : Prop) (before : List Passage) (p : Passage) (e : ExpansionError) :
    Prop :=
  p.call.IllFormed (Asked asked before) e

/-- Nothing is wrong with any call. -/
def NoneIllFormed (asked : Prop) (passages : List Passage) : Prop :=
  ∀ before p after, passages = before ++ p :: after → ∀ e, ¬ p.IllFormedAfter asked before e

/-- Something is wrong with a call, and nothing with the calls before it. -/
def FirstIllFormed (asked : Prop) (passages : List Passage) (e : ExpansionError) : Prop :=
  ∃ before p after, passages = before ++ p :: after ∧ NoneIllFormed asked before ∧
    p.IllFormedAfter asked before e

end Passage

namespace Passage

variable {asked : Prop} {p : Passage} {passages : List Passage} {e : ExpansionError}

theorem illFormedAfter_nil : p.IllFormedAfter asked [] e ↔ p.call.IllFormed asked e := by
  have hasked : Asked asked [] ↔ asked := or_iff_left (by simp)
  rw [IllFormedAfter, hasked]

/-- A call before the others may have asked for buckets. -/
theorem illFormedAfter_cons {first : Passage} :
    p.IllFormedAfter asked (first :: passages) e ↔
      p.IllFormedAfter (asked ∨ first.call.name = "__timeGroup".toList) passages e := by
  simp only [IllFormedAfter, Asked, List.mem_cons, exists_eq_or_imp, or_assoc]

theorem noneIllFormed_nil : NoneIllFormed asked [] := by
  intro before p after hsplit
  exact absurd hsplit.symm (List.append_ne_nil_of_right_ne_nil _ (List.cons_ne_nil _ _))

theorem noneIllFormed_cons :
    NoneIllFormed asked (p :: passages) ↔ (∀ e, ¬ p.call.IllFormed asked e) ∧
      NoneIllFormed (asked ∨ p.call.name = "__timeGroup".toList) passages := by
  constructor
  · refine fun h => ⟨fun e => ?_, fun before q after hsplit e => ?_⟩
    · rw [← illFormedAfter_nil]
      exact h [] p passages rfl e
    · rw [← illFormedAfter_cons]
      exact h (p :: before) q after (by rw [hsplit, List.cons_append]) e
  · rintro ⟨hfirst, hrest⟩ before q after hsplit e
    cases before with
    | nil =>
      cases hsplit
      rw [illFormedAfter_nil]
      exact hfirst e
    | cons r before =>
      cases hsplit
      rw [illFormedAfter_cons]
      exact hrest before q after rfl e

theorem not_firstIllFormed_nil : ¬ FirstIllFormed asked [] e := by
  rintro ⟨before, p, after, h, -⟩
  exact absurd h.symm (List.append_ne_nil_of_right_ne_nil _ (List.cons_ne_nil _ _))

theorem firstIllFormed_cons :
    FirstIllFormed asked (p :: passages) e ↔ p.call.IllFormed asked e ∨
      (∀ e', ¬ p.call.IllFormed asked e') ∧
        FirstIllFormed (asked ∨ p.call.name = "__timeGroup".toList) passages e := by
  constructor
  · rintro ⟨before, q, after, hsplit, hnone, h⟩
    cases before with
    | nil =>
      cases hsplit
      exact .inl (illFormedAfter_nil.mp h)
    | cons r before =>
      cases hsplit
      obtain ⟨hfirst, hrest⟩ := noneIllFormed_cons.mp hnone
      exact .inr ⟨hfirst, before, q, after, rfl, hrest, illFormedAfter_cons.mp h⟩
  · rintro (h | ⟨hfirst, before, q, after, rfl, hnone, h⟩)
    · exact ⟨[], p, passages, rfl, noneIllFormed_nil, illFormedAfter_nil.mpr h⟩
    · exact ⟨p :: before, q, after, rfl, noneIllFormed_cons.mpr ⟨hfirst, hnone⟩,
        illFormedAfter_cons.mpr h⟩

/-- If something is wrong with some call, there is a first one. -/
theorem noneIllFormed_iff :
    NoneIllFormed asked passages ↔ ∀ e, ¬ FirstIllFormed asked passages e := by
  induction passages generalizing asked with
  | nil => exact ⟨fun _ _ => not_firstIllFormed_nil, fun _ => noneIllFormed_nil⟩
  | cons p passages ih =>
    simp only [noneIllFormed_cons, firstIllFormed_cons, ih, not_or, not_and, forall_and]
    exact and_congr_right fun hfirst => ⟨fun h e _ => h e, fun h e => h e hfirst⟩

end Passage

theorem FillPolicy.isSome_read?_iff {cs : List Char} : (read? cs).isSome ↔ IsMode cs := by
  rw [read?, IsMode, ← Numeral.isSome_read?_iff]
  split
  next h => exact ⟨fun _ => .inl h, fun _ => rfl⟩
  next hnull =>
    split
    next h => exact ⟨fun _ => .inr (.inl h), fun _ => rfl⟩
    next hprevious =>
      rw [Option.isSome_map]
      exact ⟨fun h => .inr (.inr h), fun h => (h.resolve_left hnull).resolve_left hprevious⟩

theorem Span.isWholeSeconds_iff {width : Span} : width.isWholeSeconds = true ↔ width.IsWidth := by
  rw [isWholeSeconds, IsWidth, Bool.and_eq_true, bne_iff_ne, beq_iff_eq, Nat.one_le_iff_ne_zero]

theorem TimeMacro.ofName?_eq_none_iff {name : List Char} :
    ofName? name = none ↔ ∀ m : TimeMacro, name ≠ m.name.toList := by
  rw [Option.eq_none_iff_forall_ne_some]
  exact forall_congr' fun _ => not_congr ofName?_eq_some_iff

theorem Call.counted_iff {call : Call} {m : TimeMacro} (hname : call.name = m.name.toList) :
    call.Counted m ↔ m.takes (Arguments.ofText call.arguments).length = true := by
  rw [TimeMacro.takes, Bool.and_eq_true, decide_eq_true_iff, decide_eq_true_iff]
  exact ⟨fun h => ⟨h.least, h.most⟩, fun h => ⟨hname, h.1, h.2⟩⟩

namespace Expansion

variable {d : Dialect} {ctx ctx' : ExpansionContext} {e : ExpansionError}

/-! ## One call -/

/-- The first empty argument, if it has a name. -/
theorem find?_empty_iff {args : List (List Char)} {names : List String} {argument : String} :
    ((args.zip names).find? fun arg => arg.1 == []).map (·.2) = some argument ↔
      ∃ before after, args = before ++ [] :: after ∧ [] ∉ before ∧
        names[before.length]? = some argument := by
  induction args generalizing names with
  | nil =>
    refine ⟨nofun, ?_⟩
    rintro ⟨before, after, h, -, -⟩
    exact absurd h.symm (List.append_ne_nil_of_right_ne_nil _ (List.cons_ne_nil _ _))
  | cons arg args ih =>
    cases names with
    | nil => exact ⟨nofun, by rintro ⟨before, after, -, -, h⟩; cases h⟩
    | cons name names =>
      rw [List.zip_cons_cons, List.find?_cons]
      cases arg with
      | nil =>
        constructor
        · intro h
          cases h
          exact ⟨[], args, rfl, List.not_mem_nil, rfl⟩
        · rintro ⟨before, after, hargs, hfirst, hname⟩
          cases before with
          | nil => exact hname
          | cons other before =>
            cases hargs
            exact absurd List.mem_cons_self hfirst
      | cons c arg =>
        refine ih.trans ⟨?_, ?_⟩
        · rintro ⟨before, after, rfl, hfirst, hname⟩
          refine ⟨(c :: arg) :: before, after, rfl, fun hmem => ?_, hname⟩
          exact hfirst ((List.mem_cons.mp hmem).resolve_left nofun)
        · rintro ⟨before, after, hargs, hfirst, hname⟩
          cases before with
          | nil => cases hargs
          | cons other before =>
            obtain ⟨rfl, rfl⟩ := List.cons.inj hargs
            exact ⟨before, after, rfl, fun hmem => hfirst (List.mem_cons_of_mem _ hmem), hname⟩

theorem find?_empty_eq_none_iff {args : List (List Char)} {names : List String} :
    ((args.zip names).find? fun arg => arg.1 == []).map (·.2) = none ↔
      [] ∉ args.take names.length := by
  induction args generalizing names with
  | nil => simp
  | cons arg args ih =>
    cases names with
    | nil => simp
    | cons name names =>
      rw [List.zip_cons_cons, List.find?_cons, List.length_cons, List.take_succ_cons,
        List.mem_cons, not_or]
      cases arg with
      | nil => exact ⟨nofun, fun h => absurd rfl h.1⟩
      | cons c arg => exact ih.trans ⟨fun h => ⟨nofun, h⟩, And.right⟩

theorem missing?_eq_some_iff {m : TimeMacro} {args : List (List Char)} {argument : String} :
    missing? m args = some argument ↔
      ∃ before after, args = before ++ [] :: after ∧ [] ∉ before ∧
        m.required[before.length]? = some argument :=
  find?_empty_iff

theorem missing?_eq_none_iff {m : TimeMacro} {args : List (List Char)} :
    missing? m args = none ↔ [] ∉ args.take m.required.length :=
  find?_empty_eq_none_iff

/-- A step that fails after another does so itself, or the other has failed. -/
theorem bind_eq_error_iff {α β : Type} {r : Except ExpansionError α}
    {k : α → Except ExpansionError β} :
    r >>= k = .error e ↔ r = .error e ∨ ∃ a, r = .ok a ∧ k a = .error e := by
  cases r with
  | error e' =>
    show Except.error e' = _ ↔ _
    rw [Except.error.injEq, Except.error.injEq]
    exact ⟨.inl, fun h => h.resolve_right nofun⟩
  | ok a =>
    refine ⟨fun h => .inr ⟨a, rfl, h⟩, ?_⟩
    rintro (h | ⟨b, h, hb⟩)
    · cases h
    · cases h
      exact hb

theorem readWidth_eq_ok_iff {width : List Char} {span : Span} :
    readWidth width = .ok span ↔ Span.read (unquote width) = .ok span ∧ span.IsWidth := by
  rw [readWidth]
  cases Span.read (unquote width) with
  | error reason => exact iff_of_false (by rintro ⟨⟩) (by rintro ⟨⟨⟩, -⟩)
  | ok found =>
    dsimp only
    split
    next hfound =>
      rw [Except.ok.injEq, Except.ok.injEq]
      refine ⟨fun h => ⟨h, ?_⟩, And.left⟩
      rw [← h]
      exact Span.isWholeSeconds_iff.mp hfound
    next hfound =>
      refine ⟨by rintro ⟨⟩, fun h => absurd (Span.isWholeSeconds_iff.mpr h.2) ?_⟩
      rwa [← Except.ok.inj h.1]

theorem readWidth_eq_error_iff {width : List Char} :
    readWidth width = .error e ↔
      (∃ reason, Span.read (unquote width) = .error reason ∧
        e = .invalidWidth (String.ofList width) (.unreadable reason)) ∨
      ∃ span, Span.read (unquote width) = .ok span ∧ ¬ span.IsWidth ∧
        e = .invalidWidth (String.ofList width) .notWholeSeconds := by
  rw [readWidth]
  cases Span.read (unquote width) with
  | error reason => simp [eq_comm]
  | ok found =>
    dsimp only
    split
    next hfound => simp [Span.isWholeSeconds_iff.mp hfound]
    next hfound => simp [mt Span.isWholeSeconds_iff.mpr hfound, eq_comm]

theorem readFill_eq_error_iff {mode : Option (List Char)} :
    readFill mode.toList = .error e ↔
      ∃ text, mode = some text ∧ ¬ FillPolicy.IsMode text ∧
        e = .invalidFill (String.ofList text) := by
  cases mode with
  | none => exact ⟨nofun, nofun⟩
  | some text =>
    rw [Option.toList, readFill]
    simp only [Option.some.injEq, exists_eq_left', ← FillPolicy.isSome_read?_iff]
    cases FillPolicy.read? text <;> simp [eq_comm]

/-- A fragment that cannot be written is that of a call for buckets. -/
theorem fragment_eq_error_iff {m : TimeMacro} {args : List (List Char)} :
    fragment d ctx m args = .error e ↔
      m = .bucket ∧ (ctx.bucketUsed = true ∧ e = .secondBucket ∨
        ctx.bucketUsed ≠ true ∧ (readWidth (args.getD 1 []) = .error e ∨
          ∃ span, readWidth (args.getD 1 []) = .ok span ∧ readFill (args.drop 2) = .error e)) := by
  cases m with
  | bucket =>
    rw [fragment]
    split
    next h => simp [h, eq_comm]
    next h => simp [h, bind_eq_error_iff]
  | _ => exact iff_of_false (by rintro ⟨⟩) (by rintro ⟨⟨⟩, -⟩)

theorem expandCall_of_counted {call : Call} {m : TimeMacro} (h : call.Counted m) :
    expandCall d ctx call =
      match missing? m (Arguments.ofText call.arguments) with
      | some argument => .error (.missingArgument m argument)
      | none => fragment d ctx m (Arguments.ofText call.arguments) := by
  rw [expandCall, TimeMacro.ofName?_eq_some_iff.mpr h.name]
  exact if_pos ((Call.counted_iff h.name).mp h)

theorem expandCall_of_complete {call : Call} {m : TimeMacro} (h : call.Complete m) :
    expandCall d ctx call = fragment d ctx m (Arguments.ofText call.arguments) := by
  rw [expandCall_of_counted h.toCounted, missing?_eq_none_iff.mpr h.required]

theorem illFormed_of_expandCall {call : Call} (h : expandCall d ctx call = .error e) :
    call.IllFormed (ctx.bucketUsed = true) e := by
  cases hname : TimeMacro.ofName? call.name with
  | none =>
    rw [expandCall, hname] at h
    cases h
    exact .unknownName (TimeMacro.ofName?_eq_none_iff.mp hname)
  | some m =>
    have hcall := TimeMacro.ofName?_eq_some_iff.mp hname
    by_cases hcounted : call.Counted m
    · cases hmissing : missing? m (Arguments.ofText call.arguments) with
      | some argument =>
        rw [expandCall_of_counted hcounted, hmissing] at h
        cases h
        obtain ⟨before, after, hargs, hfirst, hargument⟩ := missing?_eq_some_iff.mp hmissing
        exact .missingArgument hcounted hargs hfirst hargument
      | none =>
        have hcomplete : call.Complete m := ⟨hcounted, missing?_eq_none_iff.mp hmissing⟩
        rw [expandCall_of_complete hcomplete, fragment_eq_error_iff] at h
        obtain ⟨rfl, h⟩ := h
        obtain ⟨column, width, mode, hargs⟩ :=
          bucket_arguments ((Call.counted_iff hcall).mp hcounted)
        rw [hargs] at h
        rcases h with ⟨hasked, rfl⟩ | ⟨hasked, hwidth | ⟨span, hwidth, hmode⟩⟩
        · exact .secondBucket hcomplete hasked
        · rcases readWidth_eq_error_iff.mp hwidth with
            ⟨reason, hread, rfl⟩ | ⟨span, hread, hspan, rfl⟩
          · exact .unreadableWidth hcomplete hasked hargs hread
          · exact .notWholeSeconds hcomplete hasked hargs hread hspan
        · obtain ⟨hread, hspan⟩ := readWidth_eq_ok_iff.mp hwidth
          obtain ⟨text, rfl, hinvalid, rfl⟩ := readFill_eq_error_iff.mp hmode
          exact .invalidFill hcomplete hasked hargs hread hspan hinvalid
    · have htakes := mt (Call.counted_iff hcall).mpr hcounted
      rw [expandCall, hname] at h
      dsimp only at h
      rw [if_neg htakes] at h
      cases h
      exact .arity hcall hcounted

theorem expandCall_of_illFormed {call : Call} (h : call.IllFormed (ctx.bucketUsed = true) e) :
    expandCall d ctx call = .error e := by
  cases h with
  | unknownName h => rw [expandCall, TimeMacro.ofName?_eq_none_iff.mpr h]
  | arity name h =>
    rw [expandCall, TimeMacro.ofName?_eq_some_iff.mpr name]
    exact if_neg (mt (Call.counted_iff name).mpr h)
  | missingArgument counted arguments first h =>
    rw [expandCall_of_counted counted,
      missing?_eq_some_iff.mpr ⟨_, _, arguments, first, h⟩]
  | secondBucket complete h =>
    rw [expandCall_of_complete complete, fragment_eq_error_iff]
    exact ⟨rfl, .inl ⟨h, rfl⟩⟩
  | unreadableWidth complete first arguments h =>
    rw [expandCall_of_complete complete, fragment_eq_error_iff, arguments]
    exact ⟨rfl, .inr ⟨first, .inl (readWidth_eq_error_iff.mpr (.inl ⟨_, h, rfl⟩))⟩⟩
  | notWholeSeconds complete first arguments reads h =>
    rw [expandCall_of_complete complete, fragment_eq_error_iff, arguments]
    exact ⟨rfl, .inr ⟨first, .inl (readWidth_eq_error_iff.mpr (.inr ⟨_, reads, h, rfl⟩))⟩⟩
  | @invalidFill column width mode span complete first arguments reads isWidth h =>
    rw [expandCall_of_complete complete, fragment_eq_error_iff, arguments]
    have hmode : readFill (some mode).toList = .error (.invalidFill (String.ofList mode)) :=
      readFill_eq_error_iff.mpr ⟨mode, rfl, h, rfl⟩
    exact ⟨rfl, .inr ⟨first, .inr ⟨span, readWidth_eq_ok_iff.mpr ⟨reads, isWidth⟩, hmode⟩⟩⟩

/-- A call cannot be expanded exactly if something is wrong with it, in either dialect. -/
theorem expandCall_eq_error_iff {call : Call} :
    expandCall d ctx call = .error e ↔ call.IllFormed (ctx.bucketUsed = true) e :=
  ⟨illFormed_of_expandCall, expandCall_of_illFormed⟩

/-- Buckets have been asked for after a call if they had been before it, or if it asks for
them. -/
theorem bucketUsed_of_expandCall {call : Call} {text : String}
    (h : expandCall d ctx call = .ok (text, ctx')) :
    ctx'.bucketUsed = true ↔ ctx.bucketUsed = true ∨ call.name = "__timeGroup".toList := by
  obtain ⟨m, hname, -, hfragment⟩ := expandCall_eq_ok h
  rw [TimeMacro.ofName?_eq_some_iff.mp hname]
  rcases fragment_cases hfragment with ⟨hne, rfl⟩ | ⟨rfl, -, span, fill, -, -, -, rfl⟩
  · have hother : m.name.toList ≠ "__timeGroup".toList := by
      cases m with
      | bucket => exact absurd rfl hne
      | _ => decide
    exact ⟨.inl, fun h => h.resolve_right hother⟩
  · exact ⟨fun _ => .inr rfl, fun _ => rfl⟩

/-! ## The calls of a text -/

theorem expandPieces_text_error_iff {text : List Char} {pieces : List Piece} :
    expandPieces d ctx (text.map .char ++ pieces) = .error e ↔
      expandPieces d ctx pieces = .error e := by
  induction text with
  | nil => rfl
  | cons c text ih =>
    rw [List.map_cons, List.cons_append, expandPieces, bind_eq_error_iff, ih]
    refine or_iff_left ?_
    rintro ⟨a, -, h⟩
    cases h

theorem expandPieces_call_error_iff {call : Call} {pieces : List Piece} :
    expandPieces d ctx (.call call :: pieces) = .error e ↔
      expandCall d ctx call = .error e ∨ ∃ fragment mid,
        expandCall d ctx call = .ok (fragment, mid) ∧ expandPieces d mid pieces = .error e := by
  rw [expandPieces, bind_eq_error_iff]
  refine or_congr_right ⟨?_, ?_⟩
  · rintro ⟨⟨fragment, mid⟩, hcall, h⟩
    rcases bind_eq_error_iff.mp h with h | ⟨a, -, h⟩
    · exact ⟨fragment, mid, hcall, h⟩
    · cases h
  · rintro ⟨fragment, mid, hcall, h⟩
    exact ⟨(fragment, mid), hcall, bind_eq_error_iff.mpr (.inl h)⟩

/-- The first of the calls that cannot be expanded tells why the text cannot be. -/
theorem expandPieces_eq_error_iff {passages : List Passage} {last : List Char} :
    expandPieces d ctx (Passage.pieces passages last) = .error e ↔
      Passage.FirstIllFormed (ctx.bucketUsed = true) passages e := by
  induction passages generalizing ctx with
  | nil =>
    show expandPieces d ctx (last.map .char) = _ ↔ _
    rw [← List.append_nil (last.map Piece.char), expandPieces_text_error_iff]
    exact ⟨nofun, fun h => absurd h Passage.not_firstIllFormed_nil⟩
  | cons p passages ih =>
    rw [Passage.pieces_cons, expandPieces_text_error_iff, expandPieces_call_error_iff,
      Passage.firstIllFormed_cons, ← expandCall_eq_error_iff]
    refine or_congr_right ⟨?_, ?_⟩
    · rintro ⟨fragment, mid, hcall, h⟩
      refine ⟨fun e' he' => ?_, ?_⟩
      · rw [← expandCall_eq_error_iff, hcall] at he'
        cases he'
      · rw [← bucketUsed_of_expandCall hcall]
        exact ih.mp h
    · rintro ⟨hnone, h⟩
      cases hcall : expandCall d ctx p.call with
      | error e' => exact absurd (expandCall_eq_error_iff.mp hcall) (hnone e')
      | ok r =>
        rw [← bucketUsed_of_expandCall hcall] at h
        exact ⟨r.1, r.2, rfl, ih.mpr h⟩

theorem expand_eq_error_iff {raw : String} {passages : List Passage} {last : List Char}
    (hcut : Cut raw.toList passages last) :
    expand d ctx raw = .error e ↔ Passage.FirstIllFormed (ctx.bucketUsed = true) passages e := by
  rw [← expandPieces_eq_error_iff, ← hcut.ofText_eq, expand]
  cases expandPieces d ctx (Piece.ofText raw.toList) with
  | error e' =>
    show Except.error e' = _ ↔ _
    rw [Except.error.injEq, Except.error.injEq]
  | ok r => exact iff_of_false (by rintro ⟨⟩) (by rintro ⟨⟩)

end Expansion

/-! ## Errors and faults -/

/-- Only one error of an expansion is a fault of the query. -/
theorem QueryError.ofExpansion_eq_fault_iff {e : ExpansionError} {text : String} :
    ofExpansion e = .fault text ↔
      text = Span.ReadError.carryOverflow.message ∧
        ∃ width, e = .invalidWidth width (.unreadable .carryOverflow) := by
  unfold ofExpansion
  split
  next width =>
    rw [QueryError.fault.injEq]
    exact ⟨fun h => ⟨h.symm, width, rfl⟩, fun h => h.1.symm⟩
  next e h =>
    refine ⟨nofun, ?_⟩
    rintro ⟨-, width, rfl⟩
    exact absurd rfl (h width)

namespace Expansion

/-- An expansion fails exactly if a call of the text is ill-formed, with the error of the leftmost
one, whatever the dialect.  The query fails with this error, unless a width has a full second of
nanoseconds beside the greatest number of seconds, which is a fault. -/
theorem expand_refuses_leftmost (ctx : ExpansionContext) (raw : String) :
    ∃ passages last, Cut raw.toList passages last ∧
      (∀ passages' last', Cut raw.toList passages' last' → passages' = passages ∧ last' = last) ∧
      ∀ d : Dialect,
        (∀ e, expand d ctx raw = .error e ↔
          Passage.FirstIllFormed (ctx.bucketUsed = true) passages e) ∧
        ((∃ sql ctx', expand d ctx raw = .ok (sql, ctx')) ↔
          Passage.NoneIllFormed (ctx.bucketUsed = true) passages) ∧
        ∀ text, (expand d ctx raw).mapError QueryError.ofExpansion = .error (.fault text) ↔
          text = Span.ReadError.carryOverflow.message ∧ ∃ width,
            Passage.FirstIllFormed (ctx.bucketUsed = true) passages
              (.invalidWidth width (.unreadable .carryOverflow)) := by
  have hcut := Passage.cut_ofText raw.toList
  refine ⟨_, _, hcut, fun passages' last' hcut' => ?_, fun d => ⟨fun e => ?_, ?_, fun text => ?_⟩⟩
  · exact Prod.mk.inj ((cut_iff.mp hcut').symm.trans (cut_iff.mp hcut))
  · exact expand_eq_error_iff hcut
  · rw [Passage.noneIllFormed_iff]
    simp only [← expand_eq_error_iff (d := d) hcut]
    cases expand d ctx raw with
    | error e =>
      refine ⟨?_, fun h => absurd rfl (h e)⟩
      rintro ⟨sql, ctx', h⟩
      cases h
    | ok r => exact ⟨fun _ => nofun, fun _ => ⟨r.1, r.2, rfl⟩⟩
  · simp only [← expand_eq_error_iff (d := d) hcut]
    cases expand d ctx raw with
    | error e =>
      simp only [Except.mapError, Except.error.injEq]
      exact QueryError.ofExpansion_eq_fault_iff
    | ok r => exact ⟨nofun, nofun⟩

/-- A call whose width is the greatest number of seconds and a full second of nanoseconds. -/
def fullSecond : String := "$__timeGroup(t,18446744073709551615s 1000000000ns)"

/-- The call is ill-formed, but the query ends in a fault and not with an error of the
expansion. -/
theorem expand_faults_full_second :
    (∃ passages last, Cut fullSecond.toList passages last ∧
      ∃ e, Passage.FirstIllFormed (firstMinute.bucketUsed = true) passages e) ∧
      (expand .snowflake firstMinute fullSecond).mapError QueryError.ofExpansion =
        .error (.fault "overflow in Duration::new") := by
  have hcut : Cut fullSecond.toList
      [⟨[], ⟨"__timeGroup".toList, "t,18446744073709551615s 1000000000ns".toList⟩⟩] [] :=
    cut_iff.mpr (by decide +kernel)
  have hfirst : Passage.FirstIllFormed (firstMinute.bucketUsed = true)
      [⟨[], ⟨"__timeGroup".toList, "t,18446744073709551615s 1000000000ns".toList⟩⟩]
      (.invalidWidth "18446744073709551615s 1000000000ns" (.unreadable .carryOverflow)) := by
    refine Passage.firstIllFormed_cons.mpr (.inl ?_)
    refine expandCall_eq_error_iff (d := .snowflake).mp ?_
    rfl
  refine ⟨⟨_, _, hcut, _, hfirst⟩, ?_⟩
  rw [(expand_eq_error_iff hcut).mpr hfirst]
  rfl

end Expansion

end SeriesQuery
