/-!
# Maps in the order of their keys

A `SortedMap` lists its entries in ascending order of their keys, each key once.
It is used where the order of the entries shows in an answer, and for maps so
small that a list serves best.

`find?_insert` and `find?_insert_of_ne` say what an insertion does to the map as
a function of keys, and `sorted_insert` that it keeps the order.  Of ascending entries
`mem_entries_iff` says that the list and the function of keys agree.
-/

namespace SeriesQuery

/-- Entries in ascending order of their keys. -/
structure SortedMap (κ ν : Type) where
  entries : List (κ × ν)
deriving DecidableEq

namespace SortedMap

variable {κ ν : Type} [LT κ] [DecidableLT κ] [DecidableEq κ]

/-- The map without entries. -/
def empty : SortedMap κ ν := ⟨[]⟩

def isEmpty (m : SortedMap κ ν) : Bool := m.entries.isEmpty

/-- The value of a key. -/
def find? (m : SortedMap κ ν) (k : κ) : Option ν :=
  (m.entries.find? fun e => decide (e.1 = k)).map (·.2)

/-- Puts an entry into an ascending list, in the place of one with the same key. -/
def insertEntry (k : κ) (v : ν) : List (κ × ν) → List (κ × ν)
  | [] => [(k, v)]
  | e :: es =>
    if e.1 = k then (k, v) :: es
    else if e.1 < k then e :: insertEntry k v es
    else (k, v) :: e :: es

/-- Gives a key a value, in the place of the one it had. -/
def insert (m : SortedMap κ ν) (k : κ) (v : ν) : SortedMap κ ν := ⟨insertEntry k v m.entries⟩

/-- The map of entries, of which a later one replaces an earlier one with the
same key. -/
def ofList (es : List (κ × ν)) : SortedMap κ ν := es.foldl (fun m e => m.insert e.1 e.2) empty

def keys (m : SortedMap κ ν) : List κ := m.entries.map (·.1)

def Sorted (m : SortedMap κ ν) : Prop := m.keys.Pairwise (· < ·)

omit [LT κ] [DecidableLT κ] in
theorem find?_cons (e : κ × ν) (es : List (κ × ν)) (k : κ) :
    (⟨e :: es⟩ : SortedMap κ ν).find? k = if e.1 = k then some e.2 else find? ⟨es⟩ k := by
  by_cases h : e.1 = k <;> simp [find?, h]

theorem find?_insert (m : SortedMap κ ν) (k : κ) (v : ν) : (m.insert k v).find? k = some v := by
  obtain ⟨es⟩ := m
  unfold insert
  induction es with
  | nil => simp [insertEntry, find?]
  | cons e es ih =>
    simp only [insertEntry]
    split
    · simp [find?]
    · next hne =>
      split
      · rw [find?_cons, if_neg hne, ih]
      · simp [find?]

theorem find?_insert_of_ne (m : SortedMap κ ν) {k l : κ} (h : k ≠ l) (v : ν) :
    (m.insert k v).find? l = m.find? l := by
  obtain ⟨es⟩ := m
  unfold insert
  induction es with
  | nil => simp [insertEntry, find?, h]
  | cons e es ih =>
    simp only [insertEntry]
    split
    · next he => rw [find?_cons, find?_cons, he, if_neg h, if_neg h]
    · split
      · rw [find?_cons, find?_cons, ih]
      · rw [find?_cons, if_neg h]

theorem mem_keys_insertEntry {k l : κ} {v : ν} {es : List (κ × ν)}
    (h : l ∈ (insertEntry k v es).map (·.1)) : l = k ∨ l ∈ es.map (·.1) := by
  induction es with
  | nil => simpa [insertEntry] using h
  | cons e es ih =>
    simp only [insertEntry] at h
    split at h
    · simp only [List.map_cons, List.mem_cons] at h ⊢
      rcases h with h | h
      · exact .inl h
      · exact .inr (.inr h)
    · split at h
      · simp only [List.map_cons, List.mem_cons] at h ⊢
        rcases h with h | h
        · exact .inr (.inl h)
        · rcases ih h with h | h
          · exact .inl h
          · exact .inr (.inr h)
      · simpa using h

/-- An insertion keeps the keys ascending, if `<` is transitive and of two
different keys one is less. -/
theorem sorted_insert (trans : ∀ {a b c : κ}, a < b → b < c → a < c)
    (total : ∀ {a b : κ}, a ≠ b → ¬ a < b → b < a) {m : SortedMap κ ν} (hm : m.Sorted)
    (k : κ) (v : ν) : (m.insert k v).Sorted := by
  obtain ⟨es⟩ := m
  unfold Sorted keys insert at *
  induction es with
  | nil => simp [insertEntry]
  | cons e es ih =>
    simp only [List.map_cons, List.pairwise_cons] at hm
    simp only [insertEntry]
    split
    · next he =>
      rw [List.map_cons, List.pairwise_cons]
      exact ⟨fun l hl => he ▸ hm.1 l hl, hm.2⟩
    · next hne =>
      split
      · next hlt =>
        rw [List.map_cons, List.pairwise_cons]
        refine ⟨fun l hl => ?_, ih hm.2⟩
        rcases mem_keys_insertEntry hl with rfl | hl
        · exact hlt
        · exact hm.1 l hl
      · next hlt =>
        have hk : k < e.1 := total hne hlt
        rw [List.map_cons, List.map_cons, List.pairwise_cons, List.pairwise_cons]
        refine ⟨fun l hl => ?_, hm⟩
        rcases List.mem_cons.mp hl with rfl | hl
        · exact hk
        · exact trans hk (hm.1 l hl)

/-- A new key is one key more. -/
theorem perm_keys_insert (m : SortedMap κ ν) {k : κ} (h : k ∉ m.keys) (v : ν) :
    (m.insert k v).keys.Perm (k :: m.keys) := by
  obtain ⟨es⟩ := m
  unfold keys insert at *
  induction es with
  | nil => exact .refl _
  | cons e es ih =>
    rw [List.map_cons, List.mem_cons, not_or] at h
    simp only [insertEntry]
    rw [if_neg (Ne.symm h.1)]
    split
    · exact ((ih h.2).cons e.1).trans (.swap k e.1 _)
    · exact .refl _

omit [LT κ] [DecidableLT κ] in
/-- The keys are those that have a value. -/
theorem mem_keys_iff {m : SortedMap κ ν} {k : κ} : k ∈ m.keys ↔ ∃ v, m.find? k = some v := by
  obtain ⟨es⟩ := m
  unfold keys
  induction es with
  | nil => simp [find?]
  | cons e es ih =>
    rw [find?_cons, List.map_cons, List.mem_cons, ih]
    by_cases he : e.1 = k
    · simp [he]
    · simp [he, Ne.symm he]

omit [DecidableLT κ] in
/-- A key of ascending entries has the value it is listed with. -/
theorem mem_entries_iff (irrefl : ∀ a : κ, ¬ a < a) {m : SortedMap κ ν} (hm : m.Sorted)
    {k : κ} {v : ν} : (k, v) ∈ m.entries ↔ m.find? k = some v := by
  obtain ⟨es⟩ := m
  unfold Sorted keys at hm
  induction es with
  | nil => simp [find?]
  | cons e es ih =>
    rw [List.map_cons, List.pairwise_cons] at hm
    rw [find?_cons, List.mem_cons, ih hm.2]
    by_cases he : e.1 = k
    · rw [if_pos he]
      constructor
      · rintro (h | h)
        · rw [← h]
        · have hk : e.1 < k := hm.1 k (List.mem_map.mpr ⟨(k, v), (ih hm.2).mpr h, rfl⟩)
          exact absurd (he ▸ hk) (irrefl k)
      · intro h
        exact .inl (Prod.ext he.symm (Option.some.inj h).symm)
    · rw [if_neg he]
      constructor
      · rintro (h | h)
        · exact absurd (by rw [← h]) he
        · exact h
      · exact .inr

omit [DecidableLT κ] [DecidableEq κ] in
/-- Ascending keys are different from each other. -/
theorem nodup_keys (irrefl : ∀ a : κ, ¬ a < a) {m : SortedMap κ ν} (hm : m.Sorted) :
    m.keys.Nodup := by
  refine List.Pairwise.imp (fun {a b} hlt he => ?_) hm
  subst he
  exact irrefl a hlt

omit [DecidableLT κ] in
/-- The entry of a key is where the key is. -/
theorem getElem?_idxOf (irrefl : ∀ a : κ, ¬ a < a) {m : SortedMap κ ν} (hm : m.Sorted)
    {k : κ} {v : ν} (h : m.find? k = some v) : m.entries[m.keys.idxOf k]? = some (k, v) := by
  obtain ⟨n, hn⟩ := List.getElem?_of_mem ((mem_entries_iff irrefl hm).mpr h)
  have hkey : m.keys[n]? = some k := by rw [keys, List.getElem?_map, hn]; rfl
  obtain ⟨hlt, hget⟩ := List.getElem?_eq_some_iff.mp hkey
  rw [← hget, (nodup_keys irrefl hm).idxOf_getElem n hlt, hn, hget]

/-! ## Several insertions -/

theorem find?_foldl_of_not_mem {es : List (κ × ν)} {k : κ} (h : k ∉ es.map (·.1))
    (m : SortedMap κ ν) :
    (es.foldl (fun m e => m.insert e.1 e.2) m).find? k = m.find? k := by
  induction es generalizing m with
  | nil => rfl
  | cons e es ih =>
    rw [List.map_cons, List.mem_cons, not_or] at h
    rw [List.foldl_cons, ih h.2, find?_insert_of_ne m (Ne.symm h.1)]

theorem find?_foldl_of_mem {es : List (κ × ν)} (hnodup : (es.map (·.1)).Nodup) {e : κ × ν}
    (h : e ∈ es) (m : SortedMap κ ν) :
    (es.foldl (fun m e => m.insert e.1 e.2) m).find? e.1 = some e.2 := by
  induction es generalizing m with
  | nil => cases h
  | cons e' es ih =>
    rw [List.map_cons, List.nodup_cons] at hnodup
    rw [List.foldl_cons]
    rcases List.mem_cons.mp h with rfl | h
    · rw [find?_foldl_of_not_mem hnodup.1, find?_insert]
    · exact ih hnodup.2 h _

end SortedMap

end SeriesQuery
