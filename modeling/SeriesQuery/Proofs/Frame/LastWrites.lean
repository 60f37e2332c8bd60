import Mathlib.Data.List.Nodup
import Mathlib.Data.List.Perm.Basic
import SeriesQuery.Proofs.Frame.Apart

/-!
# The map that writes leave

What stands in the map after some writes is known from the last of them to every slot
(`Write.LastIn`): its cell stands there (`Holds.last`), and in a slot without a write nothing
does (`Blanks`).  So two lists of writes leave the same map if the last writes of each are those
of the other, up to where the cells come from (`eq_of_covers`).  Nothing is asked of the order
in which the writes to different slots are made.
-/

namespace SeriesQuery

/-- Maps of ascending keys are equal if they are as functions of keys. -/
theorem SortedMap.ext_of_find? {κ ν : Type} [LT κ] [DecidableEq κ]
    (irrefl : ∀ a : κ, ¬ a < a) (trans : ∀ {a b c : κ}, a < b → b < c → a < c)
    {m m' : SortedMap κ ν} (hm : m.Sorted) (hm' : m'.Sorted)
    (h : ∀ k, m.find? k = m'.find? k) : m = m' := by
  have hperm : m.entries.Perm m'.entries := by
    refine (List.perm_ext_iff_of_nodup (List.Nodup.of_map _ (nodup_keys irrefl hm))
      (List.Nodup.of_map _ (nodup_keys irrefl hm'))).mpr fun e => ?_
    obtain ⟨k, v⟩ := e
    rw [mem_entries_iff irrefl hm, mem_entries_iff irrefl hm', h]
  have hentries : m.entries = m'.entries := by
    refine hperm.eq_of_pairwise ?_ (List.pairwise_map.mp hm) (List.pairwise_map.mp hm')
    intro e e' _ _ hlt hlt'
    exact absurd (trans hlt hlt') (irrefl e.1)
  cases m
  cases m'
  exact congrArg SortedMap.mk hentries

namespace SeriesCells

/-- A slot of a series, with the kind of the series. -/
def typedSlot (s : SeriesCells) (slot : Nat) : (k : Kind) × Option (Option k.Cell) :=
  ⟨s.kind, s.slots[slot]?⟩

theorem ext_of_typedSlot {s s' : SeriesCells} (h : ∀ slot, s.typedSlot slot = s'.typedSlot slot) :
    s = s' := by
  obtain ⟨k, slots⟩ := s
  obtain ⟨k', slots'⟩ := s'
  obtain rfl : k = k' := congrArg Sigma.fst (h 0)
  have hslots : slots = slots' := by
    apply Array.ext_getElem? fun slot => ?_
    have hslot := h slot
    simpa [typedSlot] using hslot
  rw [hslots]

theorem getElem?_blank (k : Kind) {size slot : Nat} (h : slot < size) :
    (blank k size).slots[slot]? = some none := by
  show (Array.replicate size (none : Option k.Cell))[slot]? = some none
  rw [Array.getElem?_replicate, if_pos h]

/-- A write changes one slot. -/
theorem exists_of_write {s s' : SeriesCells} {slot row : Nat} {c : Column}
    (h : s.write slot c row = .ok s') :
    ∃ cell hslot, s' = ⟨s.kind, s.slots.set slot (some cell) hslot⟩ := by
  rw [write] at h
  split at h
  next => cases h
  next cell _ =>
    split at h
    next hslot =>
      cases h
      exact ⟨cell, hslot, rfl⟩
    next => cases h

end SeriesCells

namespace Pivot

/-! ## Slots without a write -/

/-- Nothing stands in a slot that nothing was written to. -/
def Blanks (size : Nat) (done : List Write) (m : SeriesMap) : Prop :=
  ∀ key s, m.find? key = some s → ∀ slot < size,
    (∀ w ∈ done, w.key = key → w.slot ≠ slot) → s.slots[slot]? = some none

variable {size : Nat} {done ws ws' : List Write} {m m' : SeriesMap} {w : Write}

theorem blanks_empty (size : Nat) : Blanks size [] .empty := fun _ _ h => nomatch h

theorem put_blanks (h : put size m w = .ok m') (hm : Blanks size done m) :
    Blanks size (done ++ [w]) m' := by
  rw [put] at h
  split at h
  next => cases h
  next s' hwrite =>
    cases h
    obtain ⟨cell, hlt, rfl⟩ := SeriesCells.exists_of_write hwrite
    intro key s hfind slot hslot hnone
    have hdone : ∀ w ∈ done, w.key = key → w.slot ≠ slot := fun w' hw' =>
      hnone w' (List.mem_append_left _ hw')
    by_cases hkey : w.key = key
    · subst hkey
      rw [SortedMap.find?_insert, Option.some.injEq] at hfind
      subst hfind
      dsimp only
      rw [Array.getElem?_set_ne hlt (hnone w (by simp) rfl)]
      cases hold : m.find? w.key with
      | none => exact SeriesCells.getElem?_blank w.field.kind hslot
      | some old => exact hm w.key old hold slot hslot hdone
    · rw [SortedMap.find?_insert_of_ne m hkey] at hfind
      exact hm key s hfind slot hslot hdone

theorem putAll_blanks (h : putAll size ws m = .ok m') (hm : Blanks size done m) :
    Blanks size (done ++ ws) m' := by
  induction ws generalizing done m with
  | nil =>
    cases h
    rwa [List.append_nil]
  | cons w ws ih =>
    rw [putAll] at h
    split at h
    next => cases h
    next m₁ hput =>
      rw [List.append_cons]
      exact ih h (put_blanks hput hm)

/-! ## The last writes -/

/-- No later write goes to the same slot of the same series. -/
structure Write.LastIn (w : Write) (ws : List Write) : Prop where
  mem : w ∈ ws
  last : ∀ w' ∈ ws, w.Before w' → w'.key = w.key → w'.slot ≠ w.slot

theorem Write.Before.asymm {w w' : Write} (h : w.Before w') : ¬ w'.Before w := by
  rw [Write.Before] at h ⊢
  omega

/-- To every slot that is written to there is a last write. -/
theorem exists_lastIn (horder : ws.Pairwise Write.Before) (hw : w ∈ ws) :
    ∃ w' : Write, w'.LastIn ws ∧ w'.key = w.key ∧ w'.slot = w.slot := by
  induction ws generalizing w with
  | nil => cases hw
  | cons v ws ih =>
    obtain ⟨hv, horder⟩ := List.pairwise_cons.mp horder
    by_cases hlater : ∃ u ∈ ws, u.key = w.key ∧ u.slot = w.slot
    · obtain ⟨u, hu, hkey, hslot⟩ := hlater
      obtain ⟨w', hlast, hkey', hslot'⟩ := ih horder hu
      refine ⟨w', ⟨List.mem_cons_of_mem _ hlast.mem, ?_⟩, hkey'.trans hkey, hslot'.trans hslot⟩
      intro u hu hbefore
      rcases List.mem_cons.mp hu with rfl | hu
      · exact absurd hbefore (hv w' hlast.mem).asymm
      · exact hlast.last u hu hbefore
    · rcases List.mem_cons.mp hw with rfl | hw
      · refine ⟨w, ⟨List.mem_cons_self, ?_⟩, rfl, rfl⟩
        intro u hu hbefore hkey hslot
        rcases List.mem_cons.mp hu with rfl | hu
        · exact hbefore.asymm hbefore
        · exact hlater ⟨u, hu, hkey, hslot⟩
      · exact absurd ⟨w, hw, rfl, rfl⟩ hlater

/-- The last writes of a list are among those of another one, up to where the cells come from. -/
def Covers (ws ws' : List Write) : Prop :=
  ∀ w : Write, w.LastIn ws → ∃ w' : Write, w'.LastIn ws' ∧ w'.key = w.key ∧ w'.slot = w.slot ∧
    w'.field.column.typedCell w'.row = w.field.column.typedCell w.row

/-- What some writes have left in a map. -/
structure Left (size : Nat) (ws : List Write) (m : SeriesMap) : Prop where
  order : ws.Pairwise Write.Before
  holds : Holds size ws m
  blanks : Blanks size ws m

/-- In the slot of a last write stands its cell. -/
theorem Left.typedSlot (h : Left size ws m) (hw : w.LastIn ws) :
    ∃ s, m.find? w.key = some s ∧ s.typedSlot w.slot =
      ⟨(w.field.column.typedCell w.row).1, some (w.field.column.typedCell w.row).2⟩ :=
  h.holds.last w hw.mem hw.last

/-- In a slot without a write stands nothing. -/
theorem Left.typedSlot_of_unwritten (h : Left size ws m) {key : SeriesKey} {s : SeriesCells}
    (hs : m.find? key = some s) {slot : Nat} (hnone : ∀ w ∈ ws, w.key = key → w.slot ≠ slot) :
    s.typedSlot slot = ⟨s.kind, if slot < size then some none else none⟩ := by
  have hslot : s.slots[slot]? = if slot < size then some none else none := by
    by_cases hlt : slot < size
    · rw [if_pos hlt, h.blanks key s hs slot hlt hnone]
    · rw [if_neg hlt, Array.getElem?_eq_none ((h.holds.only key s hs).1 ▸ Nat.le_of_not_lt hlt)]
  exact congrArg (Sigma.mk s.kind) hslot

/-- A series that some writes have left is also left by others with the same last writes. -/
theorem Left.find?_of_covers (h : Left size ws m) (h' : Left size ws' m') (hcovers : Covers ws ws')
    (hcovers' : Covers ws' ws) {key : SeriesKey} {s : SeriesCells} (hs : m.find? key = some s) :
    m'.find? key = some s := by
  -- A slot of both series that is written to by the one list is by the other.
  have hslot : ∀ w ∈ ws, w.key = key → ∃ w' : Write, w'.LastIn ws' ∧ w'.key = key ∧
      w'.slot = w.slot ∧ s.typedSlot w.slot =
        ⟨(w'.field.column.typedCell w'.row).1, some (w'.field.column.typedCell w'.row).2⟩ := by
    rintro w hw rfl
    obtain ⟨v, hv, hkey, hslot⟩ := exists_lastIn h.order hw
    obtain ⟨w', hw', hkey', hslot', hcell⟩ := hcovers v hv
    obtain ⟨s₁, hs₁, hhas⟩ := h.typedSlot hv
    rw [hkey, hs, Option.some.injEq] at hs₁
    subst hs₁
    exact ⟨w', hw', hkey'.trans hkey, hslot'.trans hslot, by rw [← hslot, hhas, hcell]⟩
  obtain ⟨hsize, w, hw, hkey⟩ := h.holds.only key s hs
  obtain ⟨w', hw', hkey', -, hcell⟩ := hslot w hw hkey
  obtain ⟨s', hs', hhas⟩ := h'.typedSlot hw'
  rw [hkey'] at hs'
  have hsize' := (h'.holds.only key s' hs').1
  have hkind : s.kind = s'.kind :=
    (congrArg Sigma.fst hcell).trans (congrArg Sigma.fst hhas).symm
  rw [hs', Option.some.injEq]
  refine SeriesCells.ext_of_typedSlot fun slot => ?_
  by_cases hwritten : ∃ v ∈ ws, v.key = key ∧ v.slot = slot
  · obtain ⟨v, hv, hvkey, rfl⟩ := hwritten
    obtain ⟨v', hv', hvkey', hvslot, hvcell⟩ := hslot v hv hvkey
    obtain ⟨s₁, hs₁, hhas'⟩ := h'.typedSlot hv'
    rw [hvkey', hs', Option.some.injEq] at hs₁
    subst hs₁
    rw [hvcell, ← hvslot, hhas']
  · have hwritten' : ∀ v' ∈ ws', v'.key = key → v'.slot ≠ slot := by
      rintro v' hv' hvkey rfl
      obtain ⟨u', hu', hukey', huslot'⟩ := exists_lastIn h'.order hv'
      obtain ⟨u, hu, hukey, huslot, -⟩ := hcovers' u' hu'
      exact hwritten ⟨u, hu.mem, hukey.trans (hukey'.trans hvkey), huslot.trans huslot'⟩
    rw [h.typedSlot_of_unwritten hs fun v hv hvkey hvslot => hwritten ⟨v, hv, hvkey, hvslot⟩,
      h'.typedSlot_of_unwritten hs' hwritten', hkind]

theorem Left.eq_of_covers (h : Left size ws m) (h' : Left size ws' m') (hcovers : Covers ws ws')
    (hcovers' : Covers ws' ws) : m = m' := by
  refine SortedMap.ext_of_find? SeriesKey.lt_irrefl SeriesKey.lt_trans h.holds.sorted
    h'.holds.sorted fun key => ?_
  refine Option.ext fun s => ⟨?_, ?_⟩
  · exact h.find?_of_covers h' hcovers hcovers'
  · exact h'.find?_of_covers h hcovers' hcovers

end Pivot

end SeriesQuery
