/-!
# Macro calls in a text

A call is a dollar sign, a name of ASCII letters, digits and underscores, and an
argument text in parentheses, which ends at the first closing one.  Calls are
found from left to right and do not overlap: after a call the search goes on
behind its closing parenthesis, and after any other character at the next one.

`Piece.render_ofText` says that the pieces of a text are the text, so everything
that is not a call stays as it is.
-/

namespace SeriesQuery

/-- A macro call: its name and the text between its parentheses. -/
structure Call where
  /-- The name behind the dollar sign. -/
  name : List Char
  /-- The text between the parentheses. -/
  arguments : List Char
deriving DecidableEq

namespace Call

/-- A character of a name. -/
def isNameChar (c : Char) : Bool := c.isAlphanum || c == '_'

def render (call : Call) : List Char :=
  '$' :: call.name ++ '(' :: call.arguments ++ [')']

/-- Reads a call behind its dollar sign, and the rest of the text. -/
def read? (cs : List Char) : Option (Call × List Char) :=
  match cs.takeWhile isNameChar, cs.dropWhile isNameChar with
  | c :: name, '(' :: rest =>
    match rest.dropWhile (· != ')') with
    | _ :: after => some (⟨c :: name, rest.takeWhile (· != ')')⟩, after)
    | [] => none
  | _, _ => none

theorem render_append_of_read? {cs after : List Char} {call : Call}
    (h : read? cs = some (call, after)) : call.render ++ after = '$' :: cs := by
  unfold read? at h
  split at h
  · next c name rest hname hrest =>
    split at h
    · next x after' hafter =>
      simp only [Option.some.injEq, Prod.mk.injEq] at h
      obtain ⟨rfl, rfl⟩ := h
      have hx : x = ')' := by
        have hd := List.head?_dropWhile_not (· != ')') rest
        rw [hafter] at hd
        simpa using hd
      have h1 : rest.takeWhile (· != ')') ++ ')' :: after' = rest := by
        subst hx
        rw [← hafter, List.takeWhile_append_dropWhile]
      have h2 : c :: name ++ '(' :: rest = cs := by
        rw [← hname, ← hrest, List.takeWhile_append_dropWhile]
      simp only [render, List.cons_append, List.append_assoc, List.nil_append] at h2 ⊢
      rw [h1, h2]
    · simp at h
  · simp at h

theorem length_lt_of_read? {cs after : List Char} {call : Call}
    (h : read? cs = some (call, after)) : after.length < cs.length := by
  have := congrArg List.length (render_append_of_read? h)
  simp [render] at this
  omega

end Call

/-- A piece of a query text. -/
inductive Piece where
  /-- A character that belongs to no call. -/
  | char (c : Char)
  | call (call : Call)
deriving DecidableEq

namespace Piece

def render : Piece → List Char
  | .char c => [c]
  | .call found => found.render

/-- Cuts a text into calls and the characters between them. -/
def ofText (cs : List Char) : List Piece :=
  match cs with
  | [] => []
  | c :: cs =>
    if c = '$' then
      match h : Call.read? cs with
      | some (found, after) =>
        have := Call.length_lt_of_read? h
        .call found :: ofText after
      | none => .char c :: ofText cs
    else .char c :: ofText cs
termination_by cs.length
decreasing_by all_goals (simp only [List.length_cons]; omega)

theorem render_ofText (cs : List Char) : (ofText cs).flatMap render = cs := by
  fun_induction ofText cs with
  | case1 => rfl
  | case2 cs found after h _ ih =>
    simp only [List.flatMap_cons, render, ih]
    exact Call.render_append_of_read? h
  | case3 cs _ ih => simp [render, ih]
  | case4 c cs _ ih => simp [render, ih]

/-- A text that starts with a call. -/
theorem ofText_of_read? {cs after : List Char} {found : Call}
    (h : Call.read? cs = some (found, after)) : ofText ('$' :: cs) = .call found :: ofText after := by
  rw [ofText, if_pos rfl]
  split
  next hsome =>
    cases h.symm.trans hsome
    rfl
  next hnone => cases h.symm.trans hnone

end Piece

end SeriesQuery
