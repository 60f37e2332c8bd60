import Mathlib.Data.List.TakeWhile
import SeriesQuery.Number.Numeral

/-!
# The grammar of numerals

A numeral is a sign, which may be left out, and a magnitude: a word for what is not finite or
not a number, or digits with an optional point and an optional exponent (`IsNumeral`).  The
reader accepts exactly the texts of this grammar (`isSome_read?_iff`).

The reader takes all digits it finds, so the parts of a numeral come back only because none of
them starts with a character that the part before could have taken.
-/

namespace SeriesQuery.Numeral

/-! ## The grammar -/

/-- A plus, a minus or nothing. -/
def IsSign (cs : List Char) : Prop := cs = [] ∨ cs = ['+'] ∨ cs = ['-']

/-- Nothing but digits. -/
def AreDigits (cs : List Char) : Prop := ∀ c ∈ cs, '0' ≤ c ∧ c ≤ '9'

/-- A whole number with a sign or without. -/
def IsWhole (cs : List Char) : Prop :=
  ∃ sign digits, IsSign sign ∧ AreDigits digits ∧ digits ≠ [] ∧ cs = sign ++ digits

/-- An exponent, which may be left out. -/
inductive IsExponent : List Char → Prop where
  | none : IsExponent []
  | some {e : Char} {cs : List Char} (letter : e = 'e' ∨ e = 'E') (whole : IsWhole cs) :
      IsExponent (e :: cs)

/-- What stands behind the sign of a numeral. -/
inductive IsMagnitude : List Char → Prop where
  | word {cs : List Char} (h : lower cs = "inf".toList ∨ lower cs = "infinity".toList ∨
      lower cs = "nan".toList) : IsMagnitude cs
  | digits {digits exponent : List Char} (digits_are : AreDigits digits) (ne_nil : digits ≠ [])
      (exponent_is : IsExponent exponent) : IsMagnitude (digits ++ exponent)
  /-- There may be no digits on one side of the point. -/
  | point {whole fraction exponent : List Char} (whole_are : AreDigits whole)
      (fraction_are : AreDigits fraction) (ne_nil : whole ≠ [] ∨ fraction ≠ [])
      (exponent_is : IsExponent exponent) : IsMagnitude (whole ++ '.' :: (fraction ++ exponent))

/-- A numeral, without blanks around it. -/
def IsNumeral (cs : List Char) : Prop :=
  ∃ sign magnitude, IsSign sign ∧ IsMagnitude magnitude ∧ cs = sign ++ magnitude

/-! ## Signs and digits -/

theorem isDigit_iff {c : Char} : c.isDigit = true ↔ '0' ≤ c ∧ c ≤ '9' :=
  Bool.and_eq_true_iff.trans (and_congr decide_eq_true_iff decide_eq_true_iff)

theorem areDigits_iff {cs : List Char} : AreDigits cs ↔ ∀ c ∈ cs, c.isDigit = true :=
  forall₂_congr fun _ _ => isDigit_iff.symm

/-- A text that starts with no digit. -/
def NoDigit (cs : List Char) : Prop := ∀ c ∈ cs.head?, c.isDigit = false

/-- A text that starts with no sign. -/
def NoSign (cs : List Char) : Prop := ∀ c ∈ cs.head?, c ≠ '+' ∧ c ≠ '-'

theorem areDigits_span (cs : List Char) : AreDigits (Digits.span cs).1 :=
  areDigits_iff.mpr fun _ hc => List.mem_takeWhile_imp hc

theorem span_append (cs : List Char) : (Digits.span cs).1 ++ (Digits.span cs).2 = cs :=
  List.takeWhile_append_dropWhile

theorem span_of_digits {digits rest : List Char} (hdigits : AreDigits digits)
    (hrest : NoDigit rest) : Digits.span (digits ++ rest) = (digits, rest) := by
  have hall := areDigits_iff.mp hdigits
  rw [Digits.span, List.takeWhile_append_of_pos hall, List.dropWhile_append_of_pos hall]
  cases rest with
  | nil => rw [List.takeWhile_nil, List.dropWhile_nil, List.append_nil]
  | cons c rest =>
    have hc : ¬ c.isDigit = true := by
      rw [hrest c rfl]
      exact Bool.false_ne_true
    rw [List.takeWhile_cons_of_neg hc, List.dropWhile_cons_of_neg hc, List.append_nil]

theorem AreDigits.noSign {digits rest : List Char} (h : AreDigits digits) (hne : digits ≠ []) :
    NoSign (digits ++ rest) := by
  obtain ⟨d, digits, rfl⟩ := List.exists_cons_of_ne_nil hne
  have hd := isDigit_iff.mpr (h d List.mem_cons_self)
  intro c hc
  cases hc
  constructor
  · rintro rfl
    cases hd
  · rintro rfl
    cases hd

theorem noSign_of_digits {digits : List Char} (h : AreDigits digits) (hne : digits ≠ []) :
    NoSign digits := by
  have hno : NoSign (digits ++ []) := h.noSign hne
  rwa [List.append_nil] at hno

theorem splitSign_cases (cs : List Char) :
    (∃ digits, cs = '-' :: digits) ∨ (∃ digits, cs = '+' :: digits) ∨
      Digits.splitSign cs = (false, cs) := by
  unfold Digits.splitSign
  split
  next digits => exact .inl ⟨digits, rfl⟩
  next digits => exact .inr (.inl ⟨digits, rfl⟩)
  next => exact .inr (.inr rfl)

/-- What a reader finds behind the sign. -/
theorem exists_sign (cs : List Char) :
    ∃ sign, IsSign sign ∧ cs = sign ++ (Digits.splitSign cs).2 := by
  rcases splitSign_cases cs with ⟨digits, rfl⟩ | ⟨digits, rfl⟩ | hnone
  · exact ⟨['-'], .inr (.inr rfl), rfl⟩
  · exact ⟨['+'], .inr (.inl rfl), rfl⟩
  · exact ⟨[], .inl rfl, by rw [hnone, List.nil_append]⟩

theorem splitSign_of_noSign {cs : List Char} (h : NoSign cs) :
    Digits.splitSign cs = (false, cs) := by
  rcases splitSign_cases cs with ⟨digits, rfl⟩ | ⟨digits, rfl⟩ | hnone
  · exact absurd rfl (h '-' rfl).2
  · exact absurd rfl (h '+' rfl).1
  · exact hnone

theorem splitSign_of_sign {sign cs : List Char} (hsign : IsSign sign) (hcs : NoSign cs) :
    (Digits.splitSign (sign ++ cs)).2 = cs := by
  rcases hsign with rfl | rfl | rfl
  · rw [List.nil_append, splitSign_of_noSign hcs]
  · rfl
  · rfl

theorem isSome_readInt?_iff {cs : List Char} : (Digits.readInt? cs).isSome ↔ IsWhole cs := by
  have hread : (Digits.readInt? cs).isSome ↔
      (Digits.splitSign cs).2 ≠ [] ∧ AreDigits (Digits.splitSign cs).2 := by
    rw [Digits.readInt?, areDigits_iff, ← List.all_eq_true]
    dsimp only
    split
    next h => exact ⟨fun _ => h, fun _ => rfl⟩
    next h => exact ⟨nofun, fun h' => absurd h' h⟩
  rw [hread]
  constructor
  · rintro ⟨hne, hdigits⟩
    obtain ⟨sign, hsign, heq⟩ := exists_sign cs
    exact ⟨sign, _, hsign, hdigits, hne, heq⟩
  · rintro ⟨sign, digits, hsign, hdigits, hne, rfl⟩
    rw [splitSign_of_sign hsign (noSign_of_digits hdigits hne)]
    exact ⟨hne, hdigits⟩

/-! ## Numbers -/

theorem isSome_readExponent?_iff {cs : List Char} :
    (readExponent? cs).isSome ↔ IsExponent cs := by
  cases cs with
  | nil => exact ⟨fun _ => .none, fun _ => rfl⟩
  | cons e cs =>
    rw [readExponent?]
    constructor
    · intro h
      split at h
      next letter => exact .some letter (isSome_readInt?_iff.mp h)
      next => cases h
    · intro h
      cases h with
      | some letter whole =>
        rw [if_pos letter]
        exact isSome_readInt?_iff.mpr whole

theorem IsExponent.noDigit {cs : List Char} (h : IsExponent cs) : NoDigit cs := by
  cases h with
  | none => exact nofun
  | some letter whole =>
    intro c hc
    cases hc
    rcases letter with rfl | rfl <;> rfl

theorem isSome_readDecimal?_of_point {cs whole behind : List Char}
    (h : Digits.span cs = (whole, '.' :: behind)) :
    (readDecimal? cs).isSome ↔
      (whole ≠ [] ∨ (Digits.span behind).1 ≠ []) ∧ IsExponent (Digits.span behind).2 := by
  have hread : readDecimal? cs = if whole = [] ∧ (Digits.span behind).1 = [] then none
      else (readExponent? (Digits.span behind).2).map fun exponent : Int =>
        (Digits.value (whole ++ (Digits.span behind).1),
          exponent - (Digits.span behind).1.length) := by
    rw [readDecimal?, h]
    rfl
  rw [hread, ← not_and_or]
  split
  next hnone => exact ⟨nofun, fun hsome => absurd hnone hsome.1⟩
  next hsome =>
    rw [Option.isSome_map, isSome_readExponent?_iff]
    exact ⟨fun hexponent => ⟨hsome, hexponent⟩, And.right⟩

theorem isSome_readDecimal?_of_no_point {cs whole rest : List Char}
    (h : Digits.span cs = (whole, rest)) (hrest : ∀ behind, rest ≠ '.' :: behind) :
    (readDecimal? cs).isSome ↔ whole ≠ [] ∧ IsExponent rest := by
  have hread : readDecimal? cs = if whole = [] ∧ ([] : List Char) = [] then none
      else (readExponent? rest).map fun exponent : Int =>
        (Digits.value (whole ++ []), exponent - ([] : List Char).length) := by
    rw [readDecimal?, h]
    dsimp only
    split
    next behind => exact absurd rfl (hrest behind)
    next => rfl
  rw [hread]
  split
  next hnone => exact ⟨nofun, fun hsome => absurd hnone.1 hsome.1⟩
  next hsome =>
    rw [Option.isSome_map, isSome_readExponent?_iff]
    exact ⟨fun hexponent => ⟨fun hnil => hsome ⟨hnil, rfl⟩, hexponent⟩, And.right⟩

/-- The digits, the point and the digits behind it are found if the parts are there. -/
theorem isSome_readDecimal?_iff {cs : List Char} :
    (readDecimal? cs).isSome ↔
      (∃ digits exponent, AreDigits digits ∧ digits ≠ [] ∧ IsExponent exponent ∧
        cs = digits ++ exponent) ∨
      ∃ whole fraction exponent, AreDigits whole ∧ AreDigits fraction ∧
        (whole ≠ [] ∨ fraction ≠ []) ∧ IsExponent exponent ∧
          cs = whole ++ '.' :: (fraction ++ exponent) := by
  constructor
  · intro h
    have hcs := span_append cs
    have hwhole := areDigits_span cs
    cases hspan : Digits.span cs with
    | mk whole rest =>
      rw [hspan] at hcs hwhole
      by_cases hpoint : ∃ behind, rest = '.' :: behind
      · obtain ⟨behind, rfl⟩ := hpoint
        obtain ⟨hne, hexponent⟩ := (isSome_readDecimal?_of_point hspan).mp h
        refine .inr ⟨whole, _, _, hwhole, areDigits_span behind, hne, hexponent, ?_⟩
        rw [span_append, hcs]
      · obtain ⟨hne, hexponent⟩ := (isSome_readDecimal?_of_no_point hspan
          (not_exists.mp hpoint)).mp h
        exact .inl ⟨whole, rest, hwhole, hne, hexponent, hcs.symm⟩
  · rintro (⟨digits, exponent, hdigits, hne, hexponent, rfl⟩ |
      ⟨whole, fraction, exponent, hwhole, hfraction, hne, hexponent, rfl⟩)
    · refine (isSome_readDecimal?_of_no_point (span_of_digits hdigits hexponent.noDigit)
        fun behind hbehind => ?_).mpr ⟨hne, hexponent⟩
      rw [hbehind] at hexponent
      cases hexponent with
      | some letter _ => exact letter.elim nofun nofun
    · have hspan : Digits.span (whole ++ '.' :: (fraction ++ exponent)) =
          (whole, '.' :: (fraction ++ exponent)) := by
        refine span_of_digits hwhole fun c hc => ?_
        cases hc
        rfl
      rw [isSome_readDecimal?_of_point hspan, span_of_digits hfraction hexponent.noDigit]
      exact ⟨hne, hexponent⟩

/-! ## Numerals -/

theorem isMagnitude_iff {cs : List Char} :
    IsMagnitude cs ↔ (lower cs = "inf".toList ∨ lower cs = "infinity".toList ∨
      lower cs = "nan".toList) ∨ (readDecimal? cs).isSome := by
  rw [isSome_readDecimal?_iff]
  constructor
  · intro h
    cases h with
    | word h => exact .inl h
    | digits hdigits hne hexponent => exact .inr (.inl ⟨_, _, hdigits, hne, hexponent, rfl⟩)
    | point hwhole hfraction hne hexponent =>
      exact .inr (.inr ⟨_, _, _, hwhole, hfraction, hne, hexponent, rfl⟩)
  · rintro (h | ⟨_, _, hdigits, hne, hexponent, rfl⟩ |
      ⟨_, _, _, hwhole, hfraction, hne, hexponent, rfl⟩)
    · exact .word h
    · exact .digits hdigits hne hexponent
    · exact .point hwhole hfraction hne hexponent

theorem IsMagnitude.noSign {cs : List Char} (h : IsMagnitude cs) : NoSign cs := by
  cases h with
  | word h =>
    intro c hc
    obtain ⟨rest, rfl⟩ : ∃ rest, cs = c :: rest := by
      cases cs with
      | nil => cases hc
      | cons d rest =>
        cases hc
        exact ⟨rest, rfl⟩
    have hlower : c.toLower = 'i' ∨ c.toLower = 'n' := by
      rcases h with h | h | h
      · exact .inl (List.cons.inj h).1
      · exact .inl (List.cons.inj h).1
      · exact .inr (List.cons.inj h).1
    constructor
    · rintro rfl
      rcases hlower with h | h <;> cases h
    · rintro rfl
      rcases hlower with h | h <;> cases h
  | digits hdigits hne _ => exact hdigits.noSign hne
  | @point whole fraction exponent hwhole _ _ _ =>
    cases whole with
    | nil =>
      intro c hc
      cases hc
      decide
    | cons d whole => exact hwhole.noSign (List.cons_ne_nil d whole)

/-- The reader accepts exactly the numerals. -/
theorem isSome_read?_iff {cs : List Char} : (read? cs).isSome ↔ IsNumeral cs := by
  have hread : (read? cs).isSome ↔ IsMagnitude (Digits.splitSign cs).2 := by
    rw [isMagnitude_iff, read?]
    dsimp only
    split
    next h => exact ⟨fun _ => .inl (h.imp_right .inl), fun _ => rfl⟩
    next h =>
      split
      next hnan => exact ⟨fun _ => .inl (.inr (.inr hnan)), fun _ => rfl⟩
      next hnan =>
        rw [Option.isSome_map]
        refine ⟨.inr, fun hor => hor.resolve_left ?_⟩
        rintro (hw | hw | hw)
        · exact h (.inl hw)
        · exact h (.inr hw)
        · exact hnan hw
  rw [hread]
  constructor
  · intro h
    obtain ⟨sign, hsign, heq⟩ := exists_sign cs
    exact ⟨sign, _, hsign, h, heq⟩
  · rintro ⟨sign, magnitude, hsign, hmagnitude, rfl⟩
    rw [splitSign_of_sign hsign hmagnitude.noSign]
    exact hmagnitude

end SeriesQuery.Numeral
