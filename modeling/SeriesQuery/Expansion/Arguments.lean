import SeriesQuery.Text.Split

/-!
# Argument lists

The arguments of a call are the pieces of its argument text between commas, each
without the blanks around it.  A blank text holds no arguments.  There is no
quoting, so an argument holds neither a comma nor a closing parenthesis.
-/

namespace SeriesQuery.Arguments

/-- The arguments of an argument text. -/
def ofText (cs : List Char) : List (List Char) :=
  if Text.trim cs = [] then [] else (Text.splitOn ',' cs).map Text.trim

theorem ofText_eq_nil_iff {cs : List Char} : ofText cs = [] ↔ Text.trim cs = [] := by
  unfold ofText
  split
  · simp_all
  · next h => simp [h, Text.splitOn_ne_nil]

/-- A text that is not blank has one argument more than it has commas. -/
theorem length_ofText {cs : List Char} (h : Text.trim cs ≠ []) :
    (ofText cs).length = cs.count ',' + 1 := by
  simp [ofText, h, Text.length_splitOn]

end SeriesQuery.Arguments
