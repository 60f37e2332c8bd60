import SeriesQuery.Proofs.Number.Whole
import SeriesQuery.Result.Table

/-!
# Texts taken as integers

A column of integers takes a text if it shows a whole number of sixty-four signed bits, which is
written in it with nothing but blanks around (`Scalar.Shows`).  The number is appended then.  Every
other text is handed back, and the column is what it was.  So an integer comes back from its own
text, with any blanks around it (`Column.takeInteger_takes`).

That a column is unchanged is to be said of one that is changed in place, so the taking of a scalar
is also a program on a column (`Column.takeInteger`).  A column of integers appends by this program
(`TableColumn.append_eq_filledBy`).
-/

namespace SeriesQuery

/-- A text shows a whole number, with blanks around it. -/
def Scalar.Shows (s : String) (v : Int) : Prop :=
  ∃ before numeral after, (∀ c ∈ before, Text.isBlank c = true) ∧
    (∀ c ∈ after, Text.isBlank c = true) ∧ Numeral.Writes v numeral ∧
      s.toList = before ++ numeral ++ after

/-- A number is shown exactly if it is written in what is left when the blanks are trimmed. -/
theorem Scalar.shows_iff {s : String} {v : Int} :
    Shows s v ↔ Numeral.Writes v (Text.trim s.toList) := by
  constructor
  · rintro ⟨before, numeral, after, hbefore, hafter, hwrites, hs⟩
    have htrim : Text.trim (before ++ numeral ++ after) = numeral :=
      Text.dropEnds_surrounded hbefore hafter
        (fun _ hc => hwrites.isBlank_eq_false (List.mem_of_mem_head? hc))
        (fun _ hc => hwrites.isBlank_eq_false (List.mem_of_mem_getLast? hc))
    rwa [hs, htrim]
  · intro h
    obtain ⟨before, after, hbefore, hafter, hs⟩ := Text.exists_around_trim s.toList
    exact ⟨before, _, after, hbefore, hafter, h, hs⟩

theorem Scalar.readInt64?_trim_iff {s : String} {n : Int64} :
    Digits.readInt64? (Text.trim s.toList) = some n ↔ Shows s n.toInt := by
  rw [Numeral.readInt64?_eq_some_iff, shows_iff]

/-- Nothing is read exactly if no number is shown, or one that is too small or too great. -/
theorem Scalar.readInt64?_trim_eq_none_iff {s : String} :
    Digits.readInt64? (Text.trim s.toList) = none ↔
      ∀ v, Shows s v → ¬ (-2 ^ 63 ≤ v ∧ v < 2 ^ 63) := by
  rw [Option.eq_none_iff_forall_ne_some]
  constructor
  · intro h v hshows hfits
    refine h (Int64.ofInt v) (readInt64?_trim_iff.mpr ?_)
    rwa [Int64.toInt_ofInt_of_le hfits.1 hfits.2]
  · intro h n hn
    exact h n.toInt (readInt64?_trim_iff.mp hn) ⟨n.le_toInt, n.toInt_lt⟩

/-- An integer is shown by its own text, with any blanks around it. -/
theorem Scalar.shows_text (n : Int64) {before after : List Char}
    (hbefore : ∀ c ∈ before, Text.isBlank c = true)
    (hafter : ∀ c ∈ after, Text.isBlank c = true) :
    Shows (String.ofList before ++ (Scalar.int n).text ++ String.ofList after) n.toInt := by
  refine ⟨before, Digits.ofInt n.toInt, after, hbefore, hafter, Numeral.writes_ofInt n.toInt, ?_⟩
  simp [Scalar.text, Kind.text]

namespace Column

/-- Appends a scalar to a column of integers, which is changed where it is, or hands it back. -/
def takeInteger (value : Scalar) : EStateM Scalar Column Unit := do
  match ← get with
  | ⟨.integer, cells⟩ =>
    let n ←
      match value with
      | .int n => pure n
      | .string s =>
        match Digits.readInt64? (Text.trim s.toList) with
        | some n => pure n
        | none => throw value
      | other => throw other
    MonadState.set ⟨.integer, cells.push (some n)⟩
  | _ => throw value

variable (cells : Array Kind.integer.Cell)

theorem run_takeInteger_text (s : String) :
    (takeInteger (.string s)).run ⟨.integer, cells⟩ =
      match Digits.readInt64? (Text.trim s.toList) with
      | some n => .ok () ⟨.integer, cells.push (some n)⟩
      | none => .error (.string s) ⟨.integer, cells⟩ := by
  rw [takeInteger, EStateM.run_bind, EStateM.run_get]
  dsimp only
  cases Digits.readInt64? (Text.trim s.toList) <;> rfl

variable {cells}

/-- The number that a text shows is appended. -/
theorem run_takeInteger_of_shows {s : String} {n : Int64} (h : Scalar.Shows s n.toInt) :
    (takeInteger (.string s)).run ⟨.integer, cells⟩ = .ok () ⟨.integer, cells.push (some n)⟩ := by
  rw [run_takeInteger_text, Scalar.readInt64?_trim_iff.mpr h]

theorem run_takeInteger_eq_ok_iff {s : String} {column : Column} :
    (takeInteger (.string s)).run ⟨.integer, cells⟩ = .ok () column ↔
      ∃ v, Scalar.Shows s v ∧ -2 ^ 63 ≤ v ∧ v < 2 ^ 63 ∧
        ∃ n : Int64, n.toInt = v ∧ column = ⟨.integer, cells.push (some n)⟩ := by
  constructor
  · intro h
    rw [run_takeInteger_text] at h
    split at h
    next n hn =>
      cases h
      exact ⟨n.toInt, Scalar.readInt64?_trim_iff.mp hn, n.le_toInt, n.toInt_lt, n, rfl, rfl⟩
    next => cases h
  · rintro ⟨v, hshows, -, -, n, rfl, rfl⟩
    exact run_takeInteger_of_shows hshows

/-- A text that shows no number in range is handed back, and nothing is appended. -/
theorem run_takeInteger_eq_error_iff {s : String} {rejected : Scalar} {column : Column} :
    (takeInteger (.string s)).run ⟨.integer, cells⟩ = .error rejected column ↔
      (∀ v, Scalar.Shows s v → ¬ (-2 ^ 63 ≤ v ∧ v < 2 ^ 63)) ∧
        rejected = .string s ∧ column = ⟨.integer, cells⟩ := by
  rw [run_takeInteger_text, ← Scalar.readInt64?_trim_eq_none_iff]
  cases Digits.readInt64? (Text.trim s.toList) <;> simp [eq_comm]

end Column

/-- What becomes of a column when a scalar was to be appended in place: the column that is left, or
an error that names the scalar handed back. -/
def TableColumn.filledBy (c : TableColumn) :
    EStateM.Result Scalar Column Unit → Except TableError TableColumn
  | .ok _ column => .ok { c with column }
  | .error rejected _ => .error (.coercion c.name rejected c.column.kind)

/-- A column of integers appends in place. -/
theorem TableColumn.append_eq_filledBy {c : TableColumn} (hkind : c.column.kind = .integer)
    {value : Scalar} (hnull : value ≠ .null) :
    c.append value = c.filledBy ((Column.takeInteger value).run c.column) := by
  obtain ⟨name, kind, cells⟩ := c
  cases hkind
  cases value with
  | null => exact absurd rfl hnull
  | string s =>
    rw [append, if_neg hnull, Column.run_takeInteger_text, Scalar.coerce?]
    cases Digits.readInt64? (Text.trim s.toList) <;> rfl
  | int n => rfl
  | float x => rfl
  | timestamp t => rfl
  | bool b => rfl

namespace Column

/-- A column of integers takes exactly the texts that show a whole number of sixty-four signed bits,
and appends that number.  Every other text is handed back, and leaves the column as it was.  Columns
of tables append in this way.  And an integer whose text stands among blanks comes back. -/
theorem takeInteger_takes (cells : Array Kind.integer.Cell) :
    (∀ s : String,
      (∀ column, (takeInteger (.string s)).run ⟨.integer, cells⟩ = .ok () column ↔
        ∃ v, Scalar.Shows s v ∧ -2 ^ 63 ≤ v ∧ v < 2 ^ 63 ∧
          ∃ n : Int64, n.toInt = v ∧ column = ⟨.integer, cells.push (some n)⟩) ∧
      (∀ rejected column,
        (takeInteger (.string s)).run ⟨.integer, cells⟩ = .error rejected column ↔
          (∀ v, Scalar.Shows s v → ¬ (-2 ^ 63 ≤ v ∧ v < 2 ^ 63)) ∧
            rejected = .string s ∧ column = ⟨.integer, cells⟩) ∧
      ∀ name, TableColumn.append ⟨name, ⟨.integer, cells⟩⟩ (.string s) =
        TableColumn.filledBy ⟨name, ⟨.integer, cells⟩⟩
          ((takeInteger (.string s)).run ⟨.integer, cells⟩)) ∧
    ∀ (n : Int64) (before after : List Char), (∀ c ∈ before, Text.isBlank c = true) →
      (∀ c ∈ after, Text.isBlank c = true) →
        (takeInteger (.string (String.ofList before ++ (Scalar.int n).text ++
          String.ofList after))).run ⟨.integer, cells⟩ =
            .ok () ⟨.integer, cells.push (some n)⟩ :=
  ⟨fun _ => ⟨fun _ => run_takeInteger_eq_ok_iff, fun _ _ => run_takeInteger_eq_error_iff,
      fun _ => TableColumn.append_eq_filledBy rfl nofun⟩,
    fun n _ _ hbefore hafter => run_takeInteger_of_shows (Scalar.shows_text n hbefore hafter)⟩

/-- The greatest integer behind a sign and zeros, the least one between a wide blank and a
tabulator, and a number too great by one. -/
theorem takeInteger_takes_extremes :
    (∀ c ∈ ['\u3000'], Text.isBlank c = true) ∧ (∀ c ∈ ['\t'], Text.isBlank c = true) ∧
    Scalar.Shows " +0009223372036854775807" 9223372036854775807 ∧
    (takeInteger (.string " +0009223372036854775807")).run ⟨.integer, #[none]⟩ =
      .ok () ⟨.integer, #[none, some 9223372036854775807]⟩ ∧
    (takeInteger (.string "\u3000-9223372036854775808\t")).run ⟨.integer, #[none]⟩ =
      .ok () ⟨.integer, #[none, some (-9223372036854775808)]⟩ ∧
    (takeInteger (.string "9223372036854775808")).run ⟨.integer, #[none]⟩ =
      .error (.string "9223372036854775808") ⟨.integer, #[none]⟩ := by
  obtain ⟨htexts, hback⟩ := takeInteger_takes #[none]
  have hbefore : ∀ c ∈ ['\u3000'], Text.isBlank c = true := by simp [Text.isBlank]
  have hafter : ∀ c ∈ ['\t'], Text.isBlank c = true := by simp [Text.isBlank]
  have hwrites : Numeral.Writes 9223372036854775807 "+0009223372036854775807".toList :=
    Numeral.readInt?_eq_some_iff.mp rfl
  have hshows : Scalar.Shows " +0009223372036854775807" 9223372036854775807 :=
    ⟨[' '], _, [], by simp [Text.isBlank], nofun, hwrites, rfl⟩
  have hleast := hback (-9223372036854775808) _ _ hbefore hafter
  have htext : String.ofList ['\u3000'] ++ (Scalar.int (-9223372036854775808)).text ++
    String.ofList ['\t'] = "\u3000-9223372036854775808\t" := rfl
  have hnothing : Digits.readInt64? (Text.trim "9223372036854775808".toList) = none := rfl
  rw [htext] at hleast
  refine ⟨hbefore, hafter, hshows, ?_, hleast, ?_⟩
  · exact ((htexts _).1 _).mpr ⟨_, hshows, by decide, by decide, 9223372036854775807, rfl, rfl⟩
  · exact ((htexts _).2.1 _ _).mpr ⟨Scalar.readInt64?_trim_eq_none_iff.mp hnothing, rfl, rfl⟩

end Column

end SeriesQuery
