import Mathlib.Data.List.TakeWhile
import SeriesQuery.Expansion.Arguments

/-!
# Joined arguments

An argument is a text without commas and without blanks at its ends.  Arguments that are joined by
commas come back from their argument text, whatever blanks stand around each of them
(`ofText_joinWith`).  The one list that does not is that of a single empty argument, since a blank
text holds no arguments.

Conversely the arguments of any text are of this form, and a text that is not blank has one of them
more than it has commas (`Arguments.ofText_undoes_joinWith`).
-/

namespace SeriesQuery

namespace Text

/-! ## Blanks at the ends -/

/-- The text neither starts nor ends with a blank. -/
def Trimmed (cs : List Char) : Prop :=
  (∀ c ∈ cs.head?, isBlank c = false) ∧ ∀ c ∈ cs.getLast?, isBlank c = false

instance (cs : List Char) : Decidable (Trimmed cs) := inferInstanceAs (Decidable (_ ∧ _))

theorem trimEnd_isPrefix (cs : List Char) : trimEnd cs <+: cs := by
  rw [← List.reverse_suffix, trimEnd, List.reverse_reverse]
  exact List.dropWhile_suffix isBlank

theorem isBlank_of_head?_trimStart {cs : List Char} {c : Char} (h : c ∈ (trimStart cs).head?) :
    isBlank c = false := by
  have hhead := List.head?_dropWhile_not isBlank cs
  rw [show (cs.dropWhile isBlank).head? = some c from h] at hhead
  exact hhead

theorem trimmed_trim (cs : List Char) : Trimmed (trim cs) := by
  constructor
  · intro c hc
    -- What is left of a text that was cut at its end begins as the text did.
    obtain ⟨dropped, hdropped⟩ := trimEnd_isPrefix (trimStart cs)
    have hhead : (trimStart cs).head? = some c := by
      rw [← hdropped, List.head?_append, ← trim, Option.mem_def.mp hc, Option.some_or]
    exact isBlank_of_head?_trimStart hhead
  · intro c hc
    rw [trim, trimEnd, List.getLast?_reverse] at hc
    exact isBlank_of_head?_trimStart hc

theorem sep_mem_joinWith (sep : Char) (p q : List Char) (ps : List (List Char)) :
    sep ∈ joinWith sep (p :: q :: ps) := by
  rw [joinWith]
  exact List.mem_append_right p List.mem_cons_self

end Text

namespace Arguments

open Text

/-! ## Arguments joined by commas -/

/-- An argument with the blanks that are written around it. -/
structure Spaced where
  before : List Char
  argument : List Char
  after : List Char
  blank_before : ∀ c ∈ before, isBlank c = true
  blank_after : ∀ c ∈ after, isBlank c = true
  noComma : ',' ∉ argument
  trimmed : Trimmed argument

namespace Spaced

def text (s : Spaced) : List Char := s.before ++ s.argument ++ s.after

theorem trim_text (s : Spaced) : trim s.text = s.argument :=
  dropEnds_surrounded s.blank_before s.blank_after s.trimmed.1 s.trimmed.2

/-- A comma is no blank. -/
theorem comma_not_mem_text (s : Spaced) : ',' ∉ s.text := by
  have hblank : isBlank ',' ≠ true := by decide
  rw [text, List.mem_append, List.mem_append]
  rintro ((hmem | hmem) | hmem)
  · exact hblank (s.blank_before ',' hmem)
  · exact s.noComma hmem
  · exact hblank (s.blank_after ',' hmem)

end Spaced

/-- Only a single empty argument gives a blank text. -/
theorem trim_joinWith_ne_nil {args : List Spaced} (hne : args ≠ [])
    (hone : args.map Spaced.argument ≠ [[]]) :
    trim (joinWith ',' (args.map Spaced.text)) ≠ [] := by
  rw [Ne, trim_eq_nil_iff]
  intro hblank
  match args with
  | [] => exact hne rfl
  | [s] =>
    have htrim : trim s.text = [] := trim_eq_nil_iff.mpr hblank
    rw [s.trim_text] at htrim
    exact hone (congrArg (fun cs => [cs]) htrim)
  | s :: s' :: args =>
    have hcomma := hblank ',' (sep_mem_joinWith ',' s.text s'.text (args.map Spaced.text))
    exact absurd hcomma (by decide)

/-- Arguments come back from the text in which they are joined, with any blanks around them. -/
theorem ofText_joinWith {args : List Spaced} (hne : args ≠ [])
    (hone : args.map Spaced.argument ≠ [[]]) :
    ofText (joinWith ',' (args.map Spaced.text)) = args.map Spaced.argument := by
  have hcomma : ∀ cs ∈ args.map Spaced.text, ',' ∉ cs := by
    intro cs hcs
    obtain ⟨s, -, rfl⟩ := List.mem_map.mp hcs
    exact s.comma_not_mem_text
  rw [ofText, if_neg (trim_joinWith_ne_nil hne hone),
    splitOn_joinWith (List.map_eq_nil_iff.not.mpr hne) hcomma, List.map_map]
  exact List.map_congr_left fun s _ => s.trim_text

/-- No argument has a comma, or a blank at an end. -/
theorem of_mem_ofText {cs argument : List Char} (h : argument ∈ ofText cs) :
    ',' ∉ argument ∧ Trimmed argument := by
  rw [ofText] at h
  split at h
  next => cases h
  next =>
    obtain ⟨piece, hpiece, rfl⟩ := List.mem_map.mp h
    refine ⟨fun hcomma => ?_, trimmed_trim piece⟩
    have hsub : ',' ∈ trimStart piece := (trimEnd_isPrefix (trimStart piece)).subset hcomma
    exact not_mem_of_mem_splitOn hpiece ((List.dropWhile_suffix isBlank).subset hsub)

/-- Splitting an argument text undoes joining.  Arguments joined by commas, with any blanks around
each of them, come back, unless there is none or a single empty one.  And any text has arguments
without commas and without blanks at their ends: none if it is blank, and else one more than it has
commas. -/
theorem ofText_undoes_joinWith :
    (∀ args : List Spaced, args ≠ [] → args.map Spaced.argument ≠ [[]] →
      ofText (joinWith ',' (args.map Spaced.text)) = args.map Spaced.argument) ∧
    ∀ cs : List Char, (ofText cs = [] ↔ ∀ c ∈ cs, isBlank c = true) ∧
      (ofText cs ≠ [] → (ofText cs).length = cs.count ',' + 1) ∧
      ∀ argument ∈ ofText cs, ',' ∉ argument ∧ Trimmed argument := by
  refine ⟨fun args hne hone => ofText_joinWith hne hone, fun cs => ⟨?_, fun hne => ?_, ?_⟩⟩
  · rw [ofText_eq_nil_iff, trim_eq_nil_iff]
  · exact length_ofText fun htrim => hne (ofText_eq_nil_iff.mpr htrim)
  · exact fun argument => of_mem_ofText

/-- A column, an empty argument behind a tabulator, and two words between wide blanks. -/
def columnAndWords : List Spaced :=
  [⟨[' '], ['t', 's'], [], by simp [isBlank], by simp, by simp, by simp [Trimmed, isBlank]⟩,
    ⟨['\t'], [], [], by simp [isBlank], by simp, by simp, by simp [Trimmed]⟩,
    ⟨['\u3000'], ['a', ' ', 'b'], ['\u3000', '\n'], by simp [isBlank], by simp [isBlank], by simp,
      by simp [Trimmed, isBlank]⟩]

theorem ofText_undoes_joinWith_columnAndWords :
    columnAndWords ≠ [] ∧ columnAndWords.map Spaced.argument ≠ [[]] ∧
      ofText " ts,\t,\u3000a b\u3000\n".toList = [['t', 's'], [], ['a', ' ', 'b']] ∧
      ofText " ts,\t,\u3000a b\u3000\n".toList ≠ [] ∧
      (ofText " ts,\t,\u3000a b\u3000\n".toList).length = 3 := by
  obtain ⟨hjoined, hall⟩ := ofText_undoes_joinWith
  have hne : columnAndWords ≠ [] := List.cons_ne_nil _ _
  have hone : columnAndWords.map Spaced.argument ≠ [[]] := by simp [columnAndWords]
  have hargs := hjoined columnAndWords hne hone
  obtain ⟨-, hlength, -⟩ := hall (joinWith ',' (columnAndWords.map Spaced.text))
  have hsome : ofText (joinWith ',' (columnAndWords.map Spaced.text)) ≠ [] := by
    rw [hargs]
    exact List.cons_ne_nil _ _
  exact ⟨hne, hone, hargs, hsome, hlength hsome⟩

end Arguments

end SeriesQuery
