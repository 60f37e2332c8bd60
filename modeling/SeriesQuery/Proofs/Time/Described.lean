import SeriesQuery.Time.Span.Reader

/-!
# Reading what is written of a span

A span of whole seconds is written in years, months, days, hours, minutes and seconds, and read
from that text it is the same span again (`read_describe`).  The numbers of the units multiplied
by their seconds add up to the span (`total_measures`), and the reader adds them up in this order.
No sum on the way exceeds the span, so none of them exceeds the numbers that there are.

The reader goes from place to place, character by character.  `Passes` says where it is behind
some characters, whatever follows and wherever they stand.  So the digits of a number, the letters
of a unit and both of them together each have a lemma, and `readFrom_behind` is the induction on
the items that follow the first one.
-/

namespace SeriesQuery.Span

/-! ## Characters -/

theorem isUnitChar_iff {c : Char} :
    isUnitChar c = true ↔
      65 ≤ c.toNat ∧ c.toNat ≤ 90 ∨ 97 ≤ c.toNat ∧ c.toNat ≤ 122 ∨ c.toNat = 181 := by
  have hupper : c.isUpper = true ↔ 65 ≤ c.toNat ∧ c.toNat ≤ 90 := decide_eq_true_iff
  have hlower : c.isLower = true ↔ 97 ≤ c.toNat ∧ c.toNat ≤ 122 :=
    Bool.and_eq_true_iff.trans (and_congr decide_eq_true_iff decide_eq_true_iff)
  have hmicro : c = 'µ' ↔ c.toNat = 181 := Char.toNat_inj.symm
  have hparts : isUnitChar c = ((c.isUpper || c.isLower) || c == 'µ') := rfl
  rw [hparts, Bool.or_eq_true, Bool.or_eq_true, beq_iff_eq, hupper, hlower,
    hmicro, or_assoc]

theorem isDigit_iff {c : Char} : c.isDigit = true ↔ 48 ≤ c.toNat ∧ c.toNat ≤ 57 :=
  Char.isDigit_iff_toNat

theorem isDigit_of_isUnitChar {c : Char} (h : isUnitChar c = true) : c.isDigit = false := by
  rw [isUnitChar_iff] at h
  rw [← Bool.not_eq_true, isDigit_iff]
  omega

theorem isBlank_of_isUnitChar {c : Char} (h : isUnitChar c = true) : Text.isBlank c = false := by
  rw [isUnitChar_iff] at h
  simp [Text.isBlank]
  omega

/-! ## From place to place -/

theorem readFrom_of_step {s s' : Span} {offset : Nat} {c : Char} {place place' : Place}
    (h : step s offset c place = .ok (s', place')) (cs : List Char) :
    readFrom s offset place (c :: cs) = readFrom s' (offset + c.utf8Size) place' cs := by
  rw [readFrom, h]
  rfl

/-- Over some characters the reader comes from one place to another. -/
def Passes (s : Span) (place : Place) (cs : List Char) (place' : Place) : Prop :=
  ∀ offset, ∃ offset', ∀ rest,
    readFrom s offset place (cs ++ rest) = readFrom s offset' place' rest

variable {s : Span} {place place' place'' : Place}

theorem passes_nil (s : Span) (place : Place) : Passes s place [] place :=
  fun offset => ⟨offset, fun _ => rfl⟩

theorem Passes.append {cs cs' : List Char} (h : Passes s place cs place')
    (h' : Passes s place' cs' place'') : Passes s place (cs ++ cs') place'' := by
  intro offset
  obtain ⟨middle, hmiddle⟩ := h offset
  obtain ⟨offset', hoffset'⟩ := h' middle
  exact ⟨offset', fun rest => by rw [List.append_assoc, hmiddle, hoffset']⟩

theorem Passes.cons {c : Char} {cs : List Char}
    (h : ∀ offset, step s offset c place = .ok (s, place')) (h' : Passes s place' cs place'') :
    Passes s place (c :: cs) place'' := by
  intro offset
  obtain ⟨offset', hoffset'⟩ := h' (offset + c.utf8Size)
  exact ⟨offset', fun rest => by rw [List.cons_append, readFrom_of_step (h offset), hoffset']⟩

theorem inWord_of_lt {n : Nat} (h : n < wordLimit) : inWord n = .ok n := if_pos h

theorem step_digit {c : Char} {n : Nat} (hc : c.isDigit = true) (h : n * 10 + digit c < wordLimit)
    (offset : Nat) : step s offset c (.whole n) = .ok (s, .whole (n * 10 + digit c)) := by
  rw [step, if_pos hc, inWord_of_lt h]
  rfl

theorem le_ofDigitChars (ds : List Char) (n : Nat) : n ≤ Nat.ofDigitChars 10 ds n := by
  induction ds generalizing n with
  | nil => exact Nat.le_refl n
  | cons d ds ih =>
    rw [Nat.ofDigitChars_cons]
    exact Nat.le_trans (by omega) (ih _)

/-- Behind more digits of a number that fits 64 bits the number has grown by these. -/
theorem passes_digits {ds : List Char} {n : Nat} (hds : ∀ d ∈ ds, d.isDigit = true)
    (h : Nat.ofDigitChars 10 ds n < wordLimit) :
    Passes s (.whole n) ds (.whole (Nat.ofDigitChars 10 ds n)) := by
  induction ds generalizing n with
  | nil => exact passes_nil s _
  | cons d ds ih =>
    have hd := hds d List.mem_cons_self
    have hnext : 10 * n + (d.toNat - '0'.toNat) = n * 10 + digit d := by
      rw [digit, Nat.mul_comm]
    rw [Nat.ofDigitChars_cons, hnext] at h ⊢
    have hfits := Nat.lt_of_le_of_lt (le_ofDigitChars ds _) h
    exact .cons (step_digit hd hfits) (ih (fun d hmem => hds d (List.mem_cons_of_mem _ hmem)) h)

theorem passes_number {n : Nat} (h : n < wordLimit) :
    Passes s .between (Digits.ofNat n) (.whole n) := by
  have hdigits : ∀ d ∈ Digits.ofNat n, d.isDigit = true := fun _ => Digits.isDigit_of_mem_ofNat
  have hvalue : Nat.ofDigitChars 10 (Digits.ofNat n) 0 = n := Digits.value_ofNat n
  obtain ⟨d, ds, hds⟩ := List.exists_cons_of_ne_nil (Digits.ofNat_ne_nil n)
  rw [hds] at hdigits hvalue ⊢
  rw [Nat.ofDigitChars_cons, Nat.mul_zero, Nat.zero_add] at hvalue
  have hfirst : ∀ offset, step s offset d .between = .ok (s, .whole (digit d)) :=
    fun offset => if_pos (hdigits d List.mem_cons_self)
  have hrest := passes_digits (s := s) (n := digit d)
    (fun d hmem => hdigits d (List.mem_cons_of_mem _ hmem)) (by rw [digit, hvalue]; exact h)
  rw [digit, hvalue] at hrest
  exact .cons hfirst hrest

theorem passes_letters {amount : Amount} {letters name : List Char}
    (h : ∀ c ∈ name, isUnitChar c = true) :
    Passes s (.unit amount letters) name (.unit amount (name.reverse ++ letters)) := by
  induction name generalizing letters with
  | nil => exact passes_nil s _
  | cons c name ih =>
    have hc : ∀ offset, step s offset c (.unit amount letters) =
        .ok (s, .unit amount (c :: letters)) := fun offset => if_pos (h c List.mem_cons_self)
    rw [List.reverse_cons, List.append_assoc]
    exact .cons hc (ih fun d hmem => h d (List.mem_cons_of_mem _ hmem))

/-- The name of a unit behind a number. -/
theorem passes_name {n : Nat} {name : List Char} (hname : name ≠ [])
    (h : ∀ c ∈ name, isUnitChar c = true) :
    Passes s (.whole n) name (.unit ⟨n, none⟩ name.reverse) := by
  obtain ⟨c, name, rfl⟩ := List.exists_cons_of_ne_nil hname
  have hc := h c List.mem_cons_self
  have hfirst : ∀ offset, step s offset c (.whole n) = .ok (s, .unit ⟨n, none⟩ [c]) := by
    intro offset
    rw [step, isDigit_of_isUnitChar hc, isBlank_of_isUnitChar hc, hc]
    rfl
  rw [List.reverse_cons]
  exact .cons hfirst (passes_letters fun d hmem => h d (List.mem_cons_of_mem _ hmem))

/-! ## Items -/

/-- A number of units, each of so many seconds, as it is written. -/
structure Measure where
  count : Nat
  symbol : String
  /-- Whether the symbol is a word. -/
  word : Bool
  seconds : Nat

/-- How a unit is called, a word in the singular or in the plural. -/
def unitName (symbol : String) (word plural : Bool) : String :=
  symbol ++ if word && plural then "s" else ""

/-- A name that is read as the one of a unit of so many seconds. -/
structure IsUnitName (name : String) (seconds : Nat) : Prop where
  unit : unit? name = some (.short seconds) ∨ unit? name = some (.long seconds)
  ne_nil : name.toList ≠ []
  isUnitChar : ∀ c ∈ name.toList, isUnitChar c = true

instance (name : String) (seconds : Nat) : Decidable (IsUnitName name seconds) :=
  decidable_of_iff
    ((unit? name = some (.short seconds) ∨ unit? name = some (.long seconds)) ∧
      name.toList ≠ [] ∧ name.toList.all Span.isUnitChar = true)
    ⟨fun ⟨h, h', h''⟩ => ⟨h, h', List.all_eq_true.mp h''⟩,
      fun ⟨h, h', h''⟩ => ⟨h, h', List.all_eq_true.mpr h''⟩⟩

namespace Measure

def name (m : Measure) : String := unitName m.symbol m.word (m.count != 1)

/-- What is written, nothing for zero. -/
def items (m : Measure) : List String := item m.count m.symbol m.word

/-- The unit is one that the reader knows under its name. -/
structure Known (m : Measure) : Prop where
  pos : 0 < m.seconds
  name : IsUnitName m.name m.seconds

/-- How many seconds there are together. -/
def total : List Measure → Nat
  | [] => 0
  | m :: ms => m.count * m.seconds + total ms

variable {m : Measure} {ms : List Measure}

theorem total_cons : total (m :: ms) = m.count * m.seconds + total ms := rfl

theorem total_nil : total [] = 0 := rfl

theorem total_cons_of_zero (h : m.count = 0) : total (m :: ms) = total ms := by
  rw [total_cons, h, Nat.zero_mul, Nat.zero_add]

theorem items_of_zero (h : m.count = 0) : m.items = [] := if_pos h

theorem items_of_ne_zero (h : m.count ≠ 0) : m.items = [toString m.count ++ m.name] := by
  rw [items, item, if_neg h, String.append_assoc]
  rfl

end Measure

open SeriesQuery.Span.Measure

theorem eq_of_seconds {s t : Span} (hs : s.nanos = 0) (ht : t.nanos = 0)
    (h : s.seconds = t.seconds) : s = t := by
  cases s
  cases t
  cases hs
  cases ht
  cases h
  rfl

theorem add_seconds {s t : Span} {n : Nat} (hs : s.nanos = 0) (ht : t.nanos = 0)
    (h : t.seconds = s.seconds + n) : add s n 0 = .ok t := by
  have hzero : inWord 0 = .ok 0 := rfl
  have hnanos : ¬ nanosPerSecond < 0 := Nat.not_lt_zero _
  have hsum : inWord t.seconds = .ok t.seconds := inWord_of_lt t.seconds_lt
  have hspan : of? t.seconds 0 = some t := by
    rw [← ht]
    exact dif_pos ⟨t.seconds_lt, t.nanos_lt⟩
  rw [add, hs, Nat.add_zero, hzero]
  dsimp only [bind, Except.bind]
  rw [if_neg hnanos, if_neg hnanos]
  dsimp only [pure, Except.pure]
  rw [← h, hsum]
  dsimp only
  rw [Nat.zero_div, Nat.zero_mod, Nat.add_zero, hspan]

/-- A number of units is added, if the sum is no more than some span. -/
theorem Measure.Known.exists_addItem {m : Measure} (hm : m.Known) {s t : Span}
    (hs : s.nanos = 0) (h : s.seconds + m.count * m.seconds ≤ t.seconds) :
    ∃ sum : Span, sum.nanos = 0 ∧ sum.seconds = s.seconds + m.count * m.seconds ∧
      addItem s ⟨m.count, none⟩ (String.ofList m.name.toList.reverse.reverse) = .ok sum := by
  have hlt := Nat.lt_of_le_of_lt h t.seconds_lt
  have hfits : inWord (m.count * m.seconds) = .ok (m.count * m.seconds) :=
    inWord_of_lt (Nat.lt_of_le_of_lt (Nat.le_add_left _ _) hlt)
  let sum : Span := ⟨s.seconds + m.count * m.seconds, 0, hlt, by decide⟩
  have hsum : add s (m.count * m.seconds) 0 = .ok sum := add_seconds hs rfl rfl
  refine ⟨sum, rfl, rfl, ?_⟩
  rw [List.reverse_reverse, String.ofList_toList]
  rcases hm.name.unit with hunit | hunit <;>
  · rw [addItem, hunit]
    dsimp only
    rw [hfits]
    dsimp only [bind, Except.bind]
    rw [hsum]

/-- A number of units that is part of a span fits 64 bits. -/
theorem Measure.Known.count_lt {m : Measure} (hm : m.Known) {t : Span}
    (h : m.count * m.seconds ≤ t.seconds) : m.count < wordLimit :=
  Nat.lt_of_le_of_lt (Nat.le_trans (Nat.le_mul_of_pos_right _ hm.pos) h) t.seconds_lt

theorem toList_item (n : Nat) (name : String) :
    (toString n ++ name).toList = Digits.ofNat n ++ name.toList := by
  rw [String.toList_append, Nat.toString_eq_repr, Nat.toList_repr]
  rfl

theorem passes_item {m : Measure} (hm : m.Known) (h : m.count < wordLimit) :
    Passes s .between (toString m.count ++ m.name).toList
      (.unit ⟨m.count, none⟩ m.name.toList.reverse) := by
  rw [toList_item]
  exact (passes_number h).append (passes_name hm.name.ne_nil hm.name.isUnitChar)

/-! ## One item after the other -/

/-- Items with a blank before each. -/
def behind (ms : List Measure) : List Char :=
  (ms.flatMap items).flatMap fun x => ' ' :: x.toList

theorem behind_cons_of_zero {m : Measure} {ms : List Measure} (h : m.count = 0) :
    behind (m :: ms) = behind ms := by
  rw [behind, List.flatMap_cons, items_of_zero h, List.nil_append, behind]

theorem behind_cons_of_ne_zero {m : Measure} {ms : List Measure} (h : m.count ≠ 0) :
    behind (m :: ms) = ' ' :: ((toString m.count ++ m.name).toList ++ behind ms) := by
  rw [behind, List.flatMap_cons, items_of_ne_zero h, List.singleton_append, List.flatMap_cons,
    List.cons_append, behind]

/-- A blank behind an item ends it. -/
theorem step_blank {s' : Span} {amount : Amount} {letters : List Char}
    (h : addItem s amount (String.ofList letters.reverse) = .ok s') (offset : Nat) :
    step s offset ' ' (.unit amount letters) = .ok (s', .between) := by
  have hletter : isUnitChar ' ' = false := by decide
  have hdigit : ' '.isDigit = false := by decide
  have hblank : Text.isBlank ' ' = true := by decide
  rw [step, hletter, hdigit, hblank, h]
  rfl

/-- Behind an item the reader adds it and the items that follow. -/
theorem readFrom_behind {ms : List Measure} (hknown : ∀ m ∈ ms, m.Known) {s s' t : Span}
    {amount : Amount} {letters : List Char}
    (hitem : addItem s amount (String.ofList letters.reverse) = .ok s') (hs' : s'.nanos = 0)
    (ht : t.nanos = 0) (h : t.seconds = s'.seconds + total ms) (offset : Nat) :
    readFrom s offset (.unit amount letters) (behind ms) = .ok t := by
  -- The letters are those of the item before, which is added when the reader sees what is behind.
  -- What has been added and what is still to come make up `t`, so nothing on the way exceeds it.
  induction ms generalizing s s' amount letters offset with
  | nil =>
    rw [eq_of_seconds ht hs' h]
    exact hitem
  | cons m ms ih =>
    obtain ⟨hm, hms⟩ := List.forall_mem_cons.mp hknown
    by_cases hzero : m.count = 0
    · rw [behind_cons_of_zero hzero]
      rw [total_cons_of_zero hzero] at h
      exact ih hms hitem hs' h offset
    · rw [total_cons] at h
      have hcount : m.count < wordLimit := hm.count_lt (t := t) (by omega)
      obtain ⟨offset', hpasses⟩ := passes_item (s := s') hm hcount (offset + ' '.utf8Size)
      obtain ⟨next, hnanos, hseconds, hnext⟩ := hm.exists_addItem (t := t) hs' (by omega)
      rw [behind_cons_of_ne_zero hzero, readFrom_of_step (step_blank hitem offset), hpasses]
      exact ih hms hnext hnanos (by omega) offset'

/-- The first item is read from the start, and the others behind it. -/
theorem readFrom_items {ms : List Measure} (hknown : ∀ m ∈ ms, m.Known) {x : String}
    {xs : List String} (hitems : ms.flatMap items = x :: xs) {s t : Span} (hs : s.nanos = 0)
    (ht : t.nanos = 0) (h : t.seconds = s.seconds + total ms) (offset : Nat) :
    readFrom s offset .between (x.toList ++ xs.flatMap fun y => ' ' :: y.toList) = .ok t := by
  induction ms with
  | nil => cases hitems
  | cons m ms ih =>
    obtain ⟨hm, hms⟩ := List.forall_mem_cons.mp hknown
    rw [List.flatMap_cons] at hitems
    by_cases hzero : m.count = 0
    · rw [items_of_zero hzero] at hitems
      rw [total_cons_of_zero hzero] at h
      exact ih hms hitems h
    · rw [items_of_ne_zero hzero, List.singleton_append, List.cons.injEq] at hitems
      obtain ⟨rfl, rfl⟩ := hitems
      rw [total_cons] at h
      have hcount : m.count < wordLimit := hm.count_lt (t := t) (by omega)
      obtain ⟨offset', hpasses⟩ := passes_item (s := s) hm hcount offset
      obtain ⟨next, hnanos, hseconds, hnext⟩ := hm.exists_addItem (t := t) hs (by omega)
      rw [hpasses]
      exact readFrom_behind hms hnext hnanos ht (by omega) offset'

/-! ## The units of a span -/

/-- The units that whole seconds are written in. -/
def measures (s : Span) : List Measure :=
  [⟨s.seconds / yearSeconds, "year", true, yearSeconds⟩,
    ⟨s.seconds % yearSeconds / monthSeconds, "month", true, monthSeconds⟩,
    ⟨s.seconds % yearSeconds % monthSeconds / 86400, "day", true, 86400⟩,
    ⟨s.seconds % yearSeconds % monthSeconds % 86400 / 3600, "h", false, 3600⟩,
    ⟨s.seconds % yearSeconds % monthSeconds % 3600 / 60, "m", false, 60⟩,
    ⟨s.seconds % yearSeconds % monthSeconds % 60, "s", false, 1⟩]

theorem known_of_names {count seconds : Nat} {symbol : String} {word : Bool} (hpos : 0 < seconds)
    (h : ∀ plural, IsUnitName (unitName symbol word plural) seconds) :
    Known ⟨count, symbol, word, seconds⟩ :=
  ⟨hpos, h _⟩

theorem known_measures (s : Span) : ∀ m ∈ measures s, m.Known := by
  simp only [measures, List.forall_mem_cons]
  refine ⟨known_of_names (by decide) ?_, known_of_names (by decide) ?_,
    known_of_names (by decide) ?_, known_of_names (by decide) ?_, known_of_names (by decide) ?_,
    known_of_names (by decide) ?_, nofun⟩
  all_goals decide

theorem sum_below_month (n : Nat) :
    n / 86400 * 86400 + (n % 86400 / 3600 * 3600 + (n % 3600 / 60 * 60 + n % 60)) = n := by
  have hday := Nat.div_add_mod' n 86400
  have hhour := Nat.div_add_mod' (n % 86400) 3600
  have hminute := Nat.div_add_mod' (n % 3600) 60
  rw [Nat.mod_mod_of_dvd n (by decide)] at hhour hminute
  rw [hminute, hhour, hday]

/-- The units of a span add up to it. -/
theorem total_measures (s : Span) : total (measures s) = s.seconds := by
  have hyear := Nat.div_add_mod' s.seconds yearSeconds
  have hmonth := Nat.div_add_mod' (s.seconds % yearSeconds) monthSeconds
  have hbelow := sum_below_month (s.seconds % yearSeconds % monthSeconds)
  rw [measures, total_cons, total_cons, total_cons, total_cons, total_cons, total_cons, total_nil,
    Nat.add_zero, Nat.mul_one, hbelow, hmonth, hyear]

theorem total_of_items {ms : List Measure} (h : ms.flatMap items = []) : total ms = 0 := by
  induction ms with
  | nil => rfl
  | cons m ms ih =>
    rw [List.flatMap_cons, List.append_eq_nil_iff] at h
    obtain ⟨hitems, hms⟩ := h
    by_cases hzero : m.count = 0
    · rw [total_cons_of_zero hzero, ih hms]
    · rw [items_of_ne_zero hzero] at hitems
      cases hitems

theorem exists_items {s : Span} (h : s.seconds ≠ 0) :
    ∃ x xs, (measures s).flatMap items = x :: xs := by
  refine List.exists_cons_of_ne_nil fun hnil => h ?_
  rw [← total_measures, total_of_items hnil]

/-- Without nanoseconds only the units of whole seconds are written. -/
theorem describe_of_items {s : Span} (hs : s.nanos = 0) {x : String} {xs : List String}
    (h : (measures s).flatMap items = x :: xs) : s.describe = String.intercalate " " (x :: xs) := by
  have hmeasures : item (s.seconds / yearSeconds) "year" true ++
      item (s.seconds % yearSeconds / monthSeconds) "month" true ++
      item (s.seconds % yearSeconds % monthSeconds / 86400) "day" true ++
      item (s.seconds % yearSeconds % monthSeconds % 86400 / 3600) "h" false ++
      item (s.seconds % yearSeconds % monthSeconds % 3600 / 60) "m" false ++
      item (s.seconds % yearSeconds % monthSeconds % 60) "s" false ++
      item (s.nanos / 1000000) "ms" false ++ item (s.nanos / 1000 % 1000) "us" false ++
      item (s.nanos % 1000) "ns" false = x :: xs := by
    rw [← h, hs]
    simp only [measures, items, List.flatMap_cons, List.flatMap_nil, List.append_assoc]
    rfl
  rw [describe, hmeasures, if_neg (List.cons_ne_nil x xs)]

theorem toList_intercalate_blank (x : String) (xs : List String) :
    (String.intercalate " " (x :: xs)).toList = x.toList ++ xs.flatMap fun y => ' ' :: y.toList := by
  induction xs generalizing x with
  | nil => rw [String.intercalate_singleton, List.flatMap_nil, List.append_nil]
  | cons y xs ih =>
    rw [String.intercalate_cons_cons, String.toList_append, String.toList_append, ih,
      List.flatMap_cons, List.append_assoc]
    rfl

/-! ## The text of a span -/

/-- The characters of items with blanks between them. -/
structure IsItems (cs : List Char) : Prop where
  first : ∃ c rest, cs = c :: rest ∧ c.isDigit = true
  last : ∃ rest c, cs = rest ++ [c] ∧ isUnitChar c = true
  each : ∀ c ∈ cs, c.isDigit = true ∨ isUnitChar c = true ∨ c = ' '

theorem IsItems.append {cs cs' : List Char} (h : IsItems cs) (h' : IsItems cs') :
    IsItems (cs ++ ' ' :: cs') := by
  obtain ⟨c, rest, rfl, hc⟩ := h.first
  obtain ⟨rest', c', rfl, hc'⟩ := h'.last
  refine ⟨⟨c, _, List.cons_append, hc⟩, ⟨c :: rest ++ ' ' :: rest', c', by simp, hc'⟩, ?_⟩
  exact List.forall_mem_append.mpr
    ⟨h.each, List.forall_mem_cons.mpr ⟨.inr (.inr rfl), h'.each⟩⟩

theorem Measure.Known.isItems {m : Measure} (hm : m.Known) :
    IsItems (toString m.count ++ m.name).toList := by
  have hdigits : ∀ d ∈ Digits.ofNat m.count, d.isDigit = true :=
    fun _ => Digits.isDigit_of_mem_ofNat
  have hname := hm.name.isUnitChar
  rw [toList_item]
  refine ⟨?_, ?_, List.forall_mem_append.mpr ⟨fun d hd => .inl (hdigits d hd), fun c hc => ?_⟩⟩
  · obtain ⟨d, ds, hds⟩ := List.exists_cons_of_ne_nil (Digits.ofNat_ne_nil m.count)
    rw [hds] at hdigits ⊢
    exact ⟨d, _, List.cons_append, hdigits d List.mem_cons_self⟩
  · obtain ⟨letters, c, hlast⟩ := (List.eq_nil_or_concat m.name.toList).resolve_left hm.name.ne_nil
    rw [hlast, List.concat_eq_append] at hname ⊢
    exact ⟨_, c, (List.append_assoc _ _ _).symm, hname c (by simp)⟩
  · exact .inr (.inl (hname c hc))

theorem isItems_of_mem {ms : List Measure} (hknown : ∀ m ∈ ms, m.Known) :
    ∀ x ∈ ms.flatMap items, IsItems x.toList := by
  intro x hx
  obtain ⟨m, hm, hx⟩ := List.mem_flatMap.mp hx
  by_cases hzero : m.count = 0
  · rw [items_of_zero hzero] at hx
    cases hx
  · rw [items_of_ne_zero hzero, List.mem_singleton] at hx
    rw [hx]
    exact (hknown m hm).isItems

theorem isItems_intercalate {x : String} {xs : List String}
    (h : ∀ y ∈ x :: xs, IsItems y.toList) : IsItems (String.intercalate " " (x :: xs)).toList := by
  induction xs generalizing x with
  | nil =>
    rw [String.intercalate_singleton]
    exact h x List.mem_cons_self
  | cons y xs ih =>
    obtain ⟨hx, hxs⟩ := List.forall_mem_cons.mp h
    rw [String.intercalate_cons_cons, String.toList_append, String.toList_append,
      List.append_assoc]
    exact hx.append (ih hxs)

/-- A span of whole seconds is written as items. -/
theorem isItems_describe {s : Span} (hs : s.nanos = 0) (h : s.seconds ≠ 0) :
    IsItems s.describe.toList := by
  obtain ⟨x, xs, hitems⟩ := exists_items h
  rw [describe_of_items hs hitems]
  refine isItems_intercalate ?_
  rw [← hitems]
  exact isItems_of_mem (known_measures s)

/-- Items hold digits, letters of units and blanks only. -/
theorem IsItems.not_mem {cs : List Char} (h : IsItems cs) {c : Char}
    (hc : (c.isDigit || isUnitChar c || c == ' ') = false) : c ∉ cs := by
  intro hmem
  rcases h.each c hmem with hdigit | hletter | rfl
  · simp [hdigit] at hc
  · simp [hletter] at hc
  · cases hc

theorem IsItems.ne_zero {cs : List Char} (h : IsItems cs) : cs ≠ ['0'] := by
  rintro rfl
  obtain ⟨rest, c, hcs, hc⟩ := h.last
  cases rest with
  | nil =>
    cases hcs
    cases hc
  | cons d rest =>
    rw [List.cons_append, List.cons.injEq] at hcs
    exact List.append_ne_nil_of_right_ne_nil _ (List.cons_ne_nil _ _) hcs.2.symm

theorem IsItems.trim_ne_nil {cs : List Char} (h : IsItems cs) : Text.trim cs ≠ [] := by
  obtain ⟨c, rest, rfl, hc⟩ := h.first
  intro hblank
  have hfirst := Text.trim_eq_nil_iff.mp hblank c List.mem_cons_self
  cases hfirst.symm.trans (Text.isBlank_of_isDigit hc)

/-- A span of whole seconds, and not zero, is read from what is written of it. -/
theorem read_describe {s : Span} (hs : s.nanos = 0) (h : s.seconds ≠ 0) :
    read s.describe.toList = .ok s := by
  have hwritten := isItems_describe hs h
  obtain ⟨x, xs, hitems⟩ := exists_items h
  have hsum : s.seconds = zero.seconds + total (measures s) := by
    rw [total_measures]
    exact (Nat.zero_add _).symm
  rw [read, if_neg hwritten.ne_zero, if_neg hwritten.trim_ne_nil, describe_of_items hs hitems,
    toList_intercalate_blank]
  exact readFrom_items (known_measures s) hitems rfl hs hsum 0

end SeriesQuery.Span
