/-!
# Blanks

White space is the Unicode property `White_Space`, twenty-five characters that
the standard has not changed since 2014.  `isBlank` is that property, and the
trimming functions drop blanks from one end or from both.

`trim_eq_nil_iff` says that a text trims to nothing exactly when it is blank
throughout, and `trim_of_ends` that a text whose ends are not blank is left
alone.  It is a case of `dropEnds_surrounded`, which holds of any characters
that are dropped from both ends.  `exists_around_trim` says that nothing but blanks
is dropped.
-/

namespace SeriesQuery.Text

/-- The property `White_Space` of Unicode. -/
def isBlank (c : Char) : Bool :=
  let n := c.toNat
  (0x09 ≤ n && n ≤ 0x0D) || n == 0x20 || n == 0x85 || n == 0xA0 || n == 0x1680 ||
    (0x2000 ≤ n && n ≤ 0x200A) || n == 0x2028 || n == 0x2029 || n == 0x202F || n == 0x205F ||
    n == 0x3000

def trimStart (cs : List Char) : List Char := cs.dropWhile isBlank

def trimEnd (cs : List Char) : List Char := (cs.reverse.dropWhile isBlank).reverse

def trim (cs : List Char) : List Char := trimEnd (trimStart cs)

theorem isBlank_of_isDigit {c : Char} (h : c.isDigit = true) : isBlank c = false := by
  have hrange : 48 ≤ c.toNat ∧ c.toNat ≤ 57 := Char.isDigit_iff_toNat.mp h
  simp [isBlank]
  omega

theorem trimStart_eq_nil_iff {cs : List Char} :
    trimStart cs = [] ↔ ∀ c ∈ cs, isBlank c = true := by
  induction cs with
  | nil => simp [trimStart]
  | cons c cs ih =>
    simp only [trimStart, List.dropWhile_cons, List.forall_mem_cons] at ih ⊢
    by_cases h : isBlank c = true <;> simp [h, ih]

theorem trimEnd_eq_nil_iff {cs : List Char} :
    trimEnd cs = [] ↔ ∀ c ∈ cs, isBlank c = true := by
  have h := @trimStart_eq_nil_iff cs.reverse
  rw [trimStart] at h
  rw [trimEnd, List.reverse_eq_nil_iff, h]
  simp only [List.mem_reverse]

theorem trim_eq_nil_iff {cs : List Char} : trim cs = [] ↔ ∀ c ∈ cs, isBlank c = true := by
  constructor
  · intro h
    have hall := trimEnd_eq_nil_iff.mp h
    cases hcs : trimStart cs with
    | nil => exact trimStart_eq_nil_iff.mp hcs
    | cons c r =>
      have hhead := List.head?_dropWhile_not isBlank cs
      rw [show cs.dropWhile isBlank = c :: r from hcs] at hhead
      have hc := hall c (by simp [hcs])
      simp [hc] at hhead
  · intro h
    rw [trim, trimStart_eq_nil_iff.mpr h]
    rfl

/-- Nothing is dropped before a character that is no blank. -/
theorem trimStart_cons {c : Char} (h : isBlank c = false) (cs : List Char) :
    trimStart (c :: cs) = c :: cs := by
  rw [trimStart, List.dropWhile_cons_of_neg (by simp [h])]

/-! ## What stands around a text -/

variable {p : Char → Bool} {left cs right : List Char}

theorem dropWhile_of_head? (h : ∀ c ∈ cs.head?, p c = false) : cs.dropWhile p = cs := by
  cases cs with
  | nil => rfl
  | cons c r => exact List.dropWhile_cons_of_neg (Bool.eq_false_iff.mp (h c rfl))

/-- What is to be dropped from both ends is dropped, and nothing else. -/
theorem dropEnds_surrounded (hleft : ∀ c ∈ left, p c = true) (hright : ∀ c ∈ right, p c = true)
    (hhead : ∀ c ∈ cs.head?, p c = false) (hlast : ∀ c ∈ cs.getLast?, p c = false) :
    (((left ++ cs ++ right).dropWhile p).reverse.dropWhile p).reverse = cs := by
  have hright' : ∀ c ∈ right.reverse, p c = true := fun c hc => hright c (List.mem_reverse.mp hc)
  have hend : cs.reverse.dropWhile p = cs.reverse := by
    refine dropWhile_of_head? fun c hc => hlast c ?_
    rwa [List.head?_reverse] at hc
  cases cs with
  | nil =>
    rw [List.append_nil, List.dropWhile_append_of_pos hleft, ← List.append_nil right,
      List.dropWhile_append_of_pos hright]
    rfl
  | cons c cs =>
    have hstart : (c :: cs ++ right).dropWhile p = c :: cs ++ right := dropWhile_of_head? hhead
    rw [List.append_assoc, List.dropWhile_append_of_pos hleft, hstart, List.reverse_append,
      List.dropWhile_append_of_pos hright', hend, List.reverse_reverse]

/-- A text that neither starts nor ends with a blank is its own trimming. -/
theorem trim_of_ends (hs : ∀ c ∈ cs.head?, isBlank c = false)
    (he : ∀ c ∈ cs.getLast?, isBlank c = false) : trim cs = cs := by
  have h := @dropEnds_surrounded isBlank [] cs [] nofun nofun hs he
  rwa [List.nil_append, List.append_nil] at h

/-- What is dropped from a text stands around its trimming, and it is blank. -/
theorem exists_around_trim (cs : List Char) :
    ∃ before after, (∀ c ∈ before, isBlank c = true) ∧ (∀ c ∈ after, isBlank c = true) ∧
      cs = before ++ trim cs ++ after := by
  have hend : trimEnd (trimStart cs) ++ ((trimStart cs).reverse.takeWhile isBlank).reverse =
      trimStart cs := by
    rw [trimEnd, ← List.reverse_append, List.takeWhile_append_dropWhile, List.reverse_reverse]
  refine ⟨cs.takeWhile isBlank, ((trimStart cs).reverse.takeWhile isBlank).reverse, ?_, ?_, ?_⟩
  · exact List.all_eq_true.mp List.all_takeWhile
  · exact fun c hc => List.all_eq_true.mp List.all_takeWhile c (List.mem_reverse.mp hc)
  · rw [List.append_assoc, trim, hend]
    exact List.takeWhile_append_dropWhile.symm

end SeriesQuery.Text
