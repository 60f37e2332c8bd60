import SeriesQuery.Proofs.FanOut.Cancellation

/-!
# Responses that were reported

A task reports by putting its response into the channel.  The response stays there until the
gatherer takes it, and is filed then (`reported_afterAll`).  A gatherer that stops because it
has all responses, or because no task is left to answer, has taken every response.  One that
stops at the deadline, or because the request was given up, leaves in the channel what it has
not taken (`channel_of_stopped`).

Nothing makes the gatherer take a response before it stops.  So if the deadline passes while
responses are under way, all of them may be missing from the results, although they were
reported in time; a reported response is safe only when it has been taken
(`reported_stay_iff`).
-/

namespace SeriesQuery.FanOut

variable {f : FanOut} {s t : State} {m : Message}

/-- A response was put into the channel: it is still there, or it was filed. -/
def State.Reported (s : State) (m : Message) : Prop :=
  m ∈ s.channel ∨ s.results.find? m.1 = some m.2

theorem Move.reported (hids : (f.requests.map QueryRequest.refId).Nodup) (hs : f.Counted s)
    (h : f.Move s t) (hm : s.Reported m) : t.Reported m := by
  rcases hm with hunder | hfiled
  · cases h with
    | send => exact .inl (List.mem_append_left _ hunder)
    | @receive m₀ rest hgatherer hchannel =>
      rw [hchannel] at hunder
      rcases List.mem_cons.mp hunder with rfl | hrest
      · exact .inr (SortedMap.find?_insert _ _ _)
      · exact .inl hrest
    | begin | finish | drop | desert | stop | expire | cancel | elapse => exact .inl hunder
  · exact .inr (h.find?_results hids hs hfiled)

/-- What was reported stays reported. -/
theorem reported_afterAll (hids : (f.requests.map QueryRequest.refId).Nodup) (hs : f.Counted s)
    (hm : s.Reported m) (es : List Event) : (f.afterAll s es).Reported m := by
  have hkeeps : f.Counted (f.afterAll s es) ∧ (f.afterAll s es).Reported m := by
    refine afterAll_keeps (P := fun t => f.Counted t ∧ t.Reported m) ?_ ⟨hs, hm⟩ es
    rintro t u ⟨ht, hm⟩ h
    exact ⟨h.counted hids ht, h.reported hids ht hm⟩
  exact hkeeps.2

/-- Of the reported responses those are filed that are no longer under way. -/
theorem State.Reported.find?_iff (hids : (f.requests.map QueryRequest.refId).Nodup)
    (hs : f.Counted s) (hm : s.Reported m) :
    s.results.find? m.1 = some m.2 ↔ m ∉ s.channel := by
  constructor
  · intro hfiled hunder
    rw [find?_of_mem_channel hids hs hunder] at hfiled
    cases hfiled
  · intro hnot
    exact hm.resolve_left hnot

/-! ## What a gatherer leaves that stops -/

theorem isOver_of_all (hover : s.tasks.all Task.isOver = true) {index : Nat} {task : Task}
    (ht : s.tasks[index]? = some task) : task.isOver = true :=
  List.all_eq_true.mp hover task (List.mem_of_getElem? ht)

/-- A gatherer that was left alone has left nothing, and no task can change that. -/
def Drained (s : State) : Prop :=
  s.gatherer = .deserted → s.channel = [] ∧ s.tasks.all Task.isOver = true

theorem Move.drained (hs : Drained s) (h : f.Move s t) : Drained t := by
  intro hdeserted
  cases h with
  | begin _ ht => cases isOver_of_all (hs hdeserted).2 ht
  | finish _ ht => cases isOver_of_all (hs hdeserted).2 ht
  | send _ ht => cases isOver_of_all (hs hdeserted).2 ht
  | drop _ ht => cases isOver_of_all (hs hdeserted).2 ht
  | receive =>
    rw [file] at hdeserted
    dsimp only at hdeserted
    split at hdeserted <;> cases hdeserted
  | desert _ hchannel hover => exact ⟨hchannel, hover⟩
  | stop => cases hdeserted
  | expire => cases hdeserted
  | cancel => exact hs hdeserted
  | elapse => exact hs hdeserted

theorem Reachable.drained (hs : f.Reachable s) : Drained s := by
  refine hs.keeps (P := Drained) ?_ fun _ _ _ hs h => h.drained hs
  intro hdeserted
  rw [FanOut.start] at hdeserted
  dsimp only at hdeserted
  split at hdeserted <;> cases hdeserted

/-- A gatherer that has stopped leaves responses under way only if it stopped at the deadline
or because the request was given up. -/
theorem channel_of_stopped (hids : (f.requests.map QueryRequest.refId).Nodup)
    (hs : f.Reachable s) (hstopped : s.gatherer ≠ .gathering) :
    s.channel = [] ∨ s.gatherer = .late ∨ s.gatherer = .cancelled := by
  cases hgatherer : s.gatherer with
  | gathering => exact absurd hgatherer hstopped
  | complete =>
    have hle := (hs.counted hids).channel_add_received_le
    rw [(hs.settled hids).complete hgatherer] at hle
    exact .inl (List.eq_nil_of_length_eq_zero (by omega))
  | deserted => exact .inl (hs.drained hgatherer).1
  | cancelled => exact .inr (.inr rfl)
  | late => exact .inr (.inl rfl)

/-! ## What the deadline may cost -/

/-- The deadline may pass, and stop a gatherer, at any time. -/
theorem afterAll_expire (hgatherer : s.gatherer = .gathering) :
    f.afterAll s [.elapse, .expire] = { s with late := true, gatherer := .late } := by
  simp [afterAll, after?, hgatherer]

/-- The reported responses are in the results in any order of the events exactly if the
gatherer has taken all of them. -/
theorem reported_stay_iff (hids : (f.requests.map QueryRequest.refId).Nodup)
    (hs : f.Reachable s) (hgatherer : s.gatherer = .gathering) :
    (∀ es, (f.afterAll s es).gatherer ≠ .gathering →
      ∀ m, s.Reported m → (f.afterAll s es).results.find? m.1 = some m.2) ↔ s.channel = [] := by
  constructor
  · intro hstay
    by_contra hne
    obtain ⟨m, hm⟩ := List.exists_mem_of_ne_nil _ hne
    have hexpire := afterAll_expire (f := f) hgatherer
    have hfiled : s.results.find? m.1 = some m.2 := by
      have hfiled := hstay [.elapse, .expire] (by rw [hexpire]; exact nofun) m (.inl hm)
      rwa [hexpire] at hfiled
    rw [find?_of_mem_channel hids (hs.counted hids) hm] at hfiled
    cases hfiled
  · intro hnil es _ m hm
    have hfiled : s.results.find? m.1 = some m.2 :=
      hm.resolve_left (by rw [hnil]; exact List.not_mem_nil)
    exact find?_results_afterAll hids hs hfiled es

/-- What becomes of the responses that were reported while the gatherer goes on, in any order
of the events.  They stay reported.  When the gatherer has stopped, those are missing from the
results that are still under way, and there are such only if it stopped at the deadline or
because the request was given up.  The deadline may pass before another response is taken, and
then all that are under way are missing, though each of them might have been filed.  So none
is missing in any order exactly if all had been taken. -/
theorem reported_until_stopped (f : FanOut) (hids : (f.requests.map QueryRequest.refId).Nodup)
    (s : State) (hs : f.Reachable s) (hgatherer : s.gatherer = .gathering) :
    (∀ es m, s.Reported m → (f.afterAll s es).Reported m) ∧
      (∀ es m, s.Reported m → (f.afterAll s es).gatherer ≠ .gathering →
        ((f.afterAll s es).results.find? m.1 = some m.2 ↔ m ∉ (f.afterAll s es).channel) ∧
          (m ∈ (f.afterAll s es).channel →
            (f.afterAll s es).gatherer = .late ∨ (f.afterAll s es).gatherer = .cancelled)) ∧
      (∀ m ∈ s.channel,
        ((f.afterAll s [.elapse, .expire]).gatherer = .late ∧
          (f.afterAll s [.elapse, .expire]).results.find? m.1 = none) ∧
          ∃ es, (f.afterAll s es).results.find? m.1 = some m.2) ∧
      ((∀ es, (f.afterAll s es).gatherer ≠ .gathering →
        ∀ m, s.Reported m → (f.afterAll s es).results.find? m.1 = some m.2) ↔
          s.channel = []) := by
  have hcounted := hs.counted hids
  refine ⟨?_, ?_, ?_, reported_stay_iff hids hs hgatherer⟩
  · intro es m hm
    exact reported_afterAll hids hcounted hm es
  · intro es m hm hstopped
    have ht := reachable_afterAll hs es
    refine ⟨(reported_afterAll hids hcounted hm es).find?_iff hids (ht.counted hids), ?_⟩
    intro hunder
    exact (channel_of_stopped hids ht hstopped).resolve_left (List.ne_nil_of_mem hunder)
  · intro m hm
    refine ⟨?_, exists_filed hids hs hgatherer hm⟩
    rw [afterAll_expire hgatherer]
    exact ⟨rfl, find?_of_mem_channel hids hcounted hm⟩

/-- A query that is answered at once. -/
def prompt : FanOut where
  requests := [QueryRequest.oneColumn]
  executor := { answer := fun _ => .rows ⟨[⟨"v", .kind .integer⟩], ⟨[[.int 1]], none⟩⟩ }
  dialect := .snowflake

/-- Its response is in the channel, and the deadline has not passed. -/
def promptReported : State :=
  prompt.afterAll prompt.start [.begin 0, .finish 0 false, .send 0]

/-- The response was not taken, so there is an order in which it is missing. -/
theorem reported_until_stopped_prompt : promptReported.late = false ∧
    ¬ ∀ es, (prompt.afterAll promptReported es).gatherer ≠ .gathering →
      ∀ m, promptReported.Reported m →
        (prompt.afterAll promptReported es).results.find? m.1 = some m.2 := by
  have hreported := reported_until_stopped prompt (by decide) promptReported
    (reachable_afterAll .start _) (by decide +kernel)
  refine ⟨by decide +kernel, ?_⟩
  rw [hreported.2.2.2]
  decide +kernel

/-- The deadline passes after the response was reported, and the results are empty. -/
theorem deadline_drops_reported : promptReported.late = false ∧
    promptReported.channel.map Prod.fst = ["A"] ∧
      (prompt.afterAll promptReported [.elapse, .expire]).gatherer = .late ∧
        (prompt.afterAll promptReported [.elapse, .expire]).results = .empty := by
  refine ⟨?_, ?_, ?_, ?_⟩ <;> decide +kernel

end SeriesQuery.FanOut
