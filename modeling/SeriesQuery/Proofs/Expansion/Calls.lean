import Mathlib.Data.List.TakeWhile
import SeriesQuery.Expansion.Call

/-!
# The calls of a text

A text is cut at its calls (`Cut`): it is a sequence of passages, each with a call behind some
text, and a last text.  The calls are the leftmost ones that do not overlap, because within none
of these texts a call begins, neither one that ends there nor one that goes on behind
(`Leftmost`).  A dollar sign in a name or in an argument is no place to look for a call, and one
that no call begins with is a character like others.

`Call.read?_eq_some_iff` says that the reader of calls finds what a call is by `Call.WellFormed`,
and `cut_iff` that the pieces of a text are its passages, so that every text can be cut in
exactly one way.
-/

namespace SeriesQuery

namespace Call

/-! ## One call -/

/-- The name of a call has at least one character, all of them letters, digits and underscores,
and its arguments end at the first closing parenthesis. -/
structure WellFormed (call : Call) : Prop where
  name_ne_nil : call.name ≠ []
  name : ∀ c ∈ call.name,
    'A' ≤ c ∧ c ≤ 'Z' ∨ 'a' ≤ c ∧ c ≤ 'z' ∨ '0' ≤ c ∧ c ≤ '9' ∨ c = '_'
  arguments : ')' ∉ call.arguments

/-- A call begins where the text starts. -/
def Begins (cs : List Char) : Prop :=
  ∃ (call : Call) (after : List Char), call.WellFormed ∧ cs = call.render ++ after

theorem isNameChar_iff {c : Char} :
    isNameChar c = true ↔
      'A' ≤ c ∧ c ≤ 'Z' ∨ 'a' ≤ c ∧ c ≤ 'z' ∨ '0' ≤ c ∧ c ≤ '9' ∨ c = '_' := by
  have hupper : c.isUpper = true ↔ 'A' ≤ c ∧ c ≤ 'Z' := decide_eq_true_iff
  have hlower : c.isLower = true ↔ 'a' ≤ c ∧ c ≤ 'z' :=
    Bool.and_eq_true_iff.trans (and_congr decide_eq_true_iff decide_eq_true_iff)
  have hdigit : c.isDigit = true ↔ '0' ≤ c ∧ c ≤ '9' :=
    Bool.and_eq_true_iff.trans (and_congr decide_eq_true_iff decide_eq_true_iff)
  have hparts : isNameChar c = (((c.isUpper || c.isLower) || c.isDigit) || c == '_') := rfl
  rw [hparts]
  simp only [Bool.or_eq_true, hupper, hlower, hdigit, beq_iff_eq, or_assoc]

theorem render_append (call : Call) (after : List Char) :
    call.render ++ after = '$' :: (call.name ++ '(' :: (call.arguments ++ ')' :: after)) := by
  simp [render]

theorem read?_of_wellFormed {call : Call} (h : call.WellFormed) (after : List Char) :
    read? (call.name ++ '(' :: (call.arguments ++ ')' :: after)) = some (call, after) := by
  obtain ⟨name, arguments⟩ := call
  have hname : ∀ c ∈ name, isNameChar c = true := fun c hc => isNameChar_iff.mpr (h.name c hc)
  have harguments : ∀ c ∈ arguments, (c != ')') = true := by
    intro c hc
    rw [bne_iff_ne]
    rintro rfl
    exact h.arguments hc
  obtain ⟨c, name, rfl⟩ := List.exists_cons_of_ne_nil h.name_ne_nil
  have hparen : ¬ isNameChar '(' = true := by decide
  have htake : (')' :: after).takeWhile (· != ')') = [] := List.takeWhile_cons_of_neg (by decide)
  have hdrop : (')' :: after).dropWhile (· != ')') = ')' :: after :=
    List.dropWhile_cons_of_neg (by decide)
  rw [read?, List.takeWhile_append_of_pos hname, List.dropWhile_append_of_pos hname,
    List.takeWhile_cons_of_neg hparen, List.dropWhile_cons_of_neg hparen, List.append_nil]
  simp only [List.takeWhile_append_of_pos harguments, List.dropWhile_append_of_pos harguments,
    htake, hdrop, List.append_nil]

theorem wellFormed_of_read? {cs after : List Char} {call : Call}
    (h : read? cs = some (call, after)) : call.WellFormed := by
  unfold read? at h
  split at h
  next c name rest hname hrest =>
    split at h
    next =>
      simp only [Option.some.injEq, Prod.mk.injEq] at h
      obtain ⟨rfl, -⟩ := h
      refine ⟨List.cons_ne_nil _ _, fun d hd => ?_, fun hmem => ?_⟩
      · rw [← hname] at hd
        exact isNameChar_iff.mp (List.mem_takeWhile_imp hd)
      · exact absurd (List.mem_takeWhile_imp hmem) (by simp)
    next => cases h
  next => cases h

/-- Behind a dollar sign the reader finds the call that begins with it. -/
theorem read?_eq_some_iff {cs after : List Char} {call : Call} :
    read? cs = some (call, after) ↔ call.WellFormed ∧ '$' :: cs = call.render ++ after := by
  constructor
  · intro h
    exact ⟨wellFormed_of_read? h, (render_append_of_read? h).symm⟩
  · rintro ⟨hcall, h⟩
    rw [render_append, List.cons.injEq] at h
    rw [h.2]
    exact read?_of_wellFormed hcall after

end Call

open Call

namespace Piece

theorem ofText_render_append {call : Call} (h : call.WellFormed) (after : List Char) :
    ofText (call.render ++ after) = .call call :: ofText after := by
  rw [render_append]
  exact ofText_of_read? (read?_of_wellFormed h after)

theorem ofText_of_not_begins {c : Char} {cs : List Char} (h : ¬ Begins (c :: cs)) :
    ofText (c :: cs) = .char c :: ofText cs := by
  rw [ofText]
  split
  next hc =>
    split
    next found after hread =>
      subst hc
      obtain ⟨hfound, htext⟩ := read?_eq_some_iff.mp hread
      exact absurd ⟨found, after, hfound, htext⟩ h
    next => rfl
  next => rfl

end Piece

/-! ## All calls -/

/-- A call with the text before it. -/
structure Passage where
  text : List Char
  call : Call
deriving DecidableEq

namespace Passage

/-- The text of passages, with some text behind them. -/
def source (passages : List Passage) (last : List Char) : List Char :=
  (passages.flatMap fun p => p.text ++ p.call.render) ++ last

theorem source_cons (p : Passage) (passages : List Passage) (last : List Char) :
    source (p :: passages) last = p.text ++ (p.call.render ++ source passages last) := by
  simp [source]

/-- Within a text, which goes on with `behind`, no call begins. -/
def Free (text behind : List Char) : Prop :=
  ∀ before rest, text = before ++ rest → rest ≠ [] → ¬ Begins (rest ++ behind)

theorem free_nil (behind : List Char) : Free [] behind := by
  intro before rest h hne
  exact absurd (List.append_eq_nil_iff.mp h.symm).2 hne

theorem free_cons {c : Char} {text behind : List Char} :
    Free (c :: text) behind ↔ ¬ Begins (c :: (text ++ behind)) ∧ Free text behind := by
  constructor
  · intro h
    refine ⟨h [] (c :: text) rfl (List.cons_ne_nil _ _), fun before rest he hne => ?_⟩
    exact h (c :: before) rest (by rw [he, List.cons_append]) hne
  · rintro ⟨hfirst, hlater⟩ before rest he hne
    cases before with
    | nil =>
      rw [List.nil_append] at he
      rw [← he, List.cons_append]
      exact hfirst
    | cons d before =>
      rw [List.cons_append, List.cons.injEq] at he
      exact hlater before rest he.2 hne

/-- The calls of passages are the first that can be found, each behind the one before: no call
begins within the texts. -/
def Leftmost : List Passage → (last : List Char) → Prop
  | [], last => Free last []
  | p :: passages, last =>
    p.call.WellFormed ∧ Free p.text (p.call.render ++ source passages last) ∧
      Leftmost passages last

end Passage

open Passage

/-- A text is cut at its calls. -/
structure Cut (cs : List Char) (passages : List Passage) (last : List Char) : Prop where
  /-- Nothing is lost. -/
  source_eq : cs = source passages last
  leftmost : Leftmost passages last

namespace Passage

/-! ## Pieces and passages -/

/-- The pieces of passages, with some text behind them. -/
def pieces (passages : List Passage) (last : List Char) : List Piece :=
  (passages.flatMap fun p => p.text.map .char ++ [.call p.call]) ++ last.map .char

theorem pieces_cons (p : Passage) (passages : List Passage) (last : List Char) :
    pieces (p :: passages) last = p.text.map .char ++ .call p.call :: pieces passages last := by
  simp [pieces]

/-- The passages of pieces, and the text behind them. -/
def ofPieces : List Piece → List Passage × List Char
  | [] => ([], [])
  | .call call :: pieces => (⟨[], call⟩ :: (ofPieces pieces).1, (ofPieces pieces).2)
  | .char c :: pieces =>
    match ofPieces pieces with
    | ([], last) => ([], c :: last)
    | (p :: passages, last) => (⟨c :: p.text, p.call⟩ :: passages, last)

theorem ofPieces_chars (last : List Char) : ofPieces (last.map .char) = ([], last) := by
  induction last with
  | nil => rfl
  | cons c last ih => rw [List.map_cons, ofPieces, ih]

theorem ofPieces_pieces (passages : List Passage) (last : List Char) :
    ofPieces (pieces passages last) = (passages, last) := by
  induction passages with
  | nil => exact ofPieces_chars last
  | cons p passages ih =>
    obtain ⟨text, call⟩ := p
    rw [pieces_cons]
    induction text with
    | nil => rw [List.map_nil, List.nil_append, ofPieces, ih]
    | cons c text ihText => rw [List.map_cons, List.cons_append, ofPieces, ihText]

/-- A text in which no call begins is cut into its characters. -/
theorem ofText_append_of_free {text behind : List Char} (h : Free text behind) :
    Piece.ofText (text ++ behind) = text.map .char ++ Piece.ofText behind := by
  induction text with
  | nil => rfl
  | cons c text ih =>
    obtain ⟨hfirst, hlater⟩ := free_cons.mp h
    rw [List.cons_append, Piece.ofText_of_not_begins hfirst, ih hlater]
    rfl

/-- The pieces of a text are those of its passages. -/
theorem ofText_source {passages : List Passage} {last : List Char} (h : Leftmost passages last) :
    Piece.ofText (source passages last) = pieces passages last := by
  induction passages with
  | nil =>
    have hlast := ofText_append_of_free h
    rw [Piece.ofText, List.append_nil, List.append_nil] at hlast
    exact hlast
  | cons p passages ih =>
    obtain ⟨hcall, hfree, hrest⟩ := h
    rw [source_cons, ofText_append_of_free hfree, Piece.ofText_render_append hcall, ih hrest,
      pieces_cons]

/-- A character that no call begins with belongs to the text of the first passage. -/
theorem leftmost_cons_char {c : Char} {cs : List Char} (hc : ¬ Begins (c :: cs))
    {pieces : List Piece} (h : Cut cs (ofPieces pieces).1 (ofPieces pieces).2) :
    Cut (c :: cs) (ofPieces (.char c :: pieces)).1 (ofPieces (.char c :: pieces)).2 := by
  rw [ofPieces]
  generalize ofPieces pieces = cut at h
  obtain ⟨_ | ⟨p, passages⟩, last⟩ := cut
  · obtain ⟨rfl, hfree⟩ := h
    exact ⟨rfl, free_cons.mpr ⟨by simpa [source] using hc, hfree⟩⟩
  · obtain ⟨rfl, hcall, hfree, hrest⟩ := h
    refine ⟨by rw [source_cons, source_cons]; rfl, hcall, free_cons.mpr ⟨?_, hfree⟩, hrest⟩
    rwa [source_cons] at hc

theorem cut_ofText (cs : List Char) :
    Cut cs (ofPieces (Piece.ofText cs)).1 (ofPieces (Piece.ofText cs)).2 := by
  fun_induction Piece.ofText cs with
  | case1 => exact ⟨rfl, free_nil []⟩
  | case2 cs found after hread _ ih =>
    obtain ⟨hfound, htext⟩ := read?_eq_some_iff.mp hread
    refine ⟨?_, hfound, free_nil _, ih.leftmost⟩
    rw [htext, ofPieces, source_cons, ← ih.source_eq]
    rfl
  | case3 cs hread ih =>
    refine leftmost_cons_char (fun hbegins => ?_) ih
    obtain ⟨call, after, hcall, htext⟩ := hbegins
    cases hread.symm.trans (read?_eq_some_iff.mpr ⟨hcall, htext⟩)
  | case4 c cs hc ih =>
    refine leftmost_cons_char (fun hbegins => ?_) ih
    obtain ⟨call, after, -, htext⟩ := hbegins
    rw [render_append, List.cons.injEq] at htext
    exact hc htext.1

end Passage

theorem Cut.ofText_eq {cs : List Char} {passages : List Passage} {last : List Char}
    (h : Cut cs passages last) : Piece.ofText cs = pieces passages last := by
  rw [h.source_eq, ofText_source h.leftmost]

/-- A text can be cut at its calls in one way, which is that of its pieces. -/
theorem cut_iff {cs : List Char} {passages : List Passage} {last : List Char} :
    Cut cs passages last ↔ ofPieces (Piece.ofText cs) = (passages, last) := by
  constructor
  · intro h
    rw [h.ofText_eq, ofPieces_pieces]
  · intro h
    have hcut := cut_ofText cs
    rwa [h] at hcut

end SeriesQuery
