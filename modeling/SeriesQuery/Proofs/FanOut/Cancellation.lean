import SeriesQuery.Proofs.FanOut.Agreement

/-!
# After a request was given up

The gatherer may stop as soon as the request is given up, and once it has stopped nothing
more is filed (`results_afterAll_of_stopped`).  But it need not stop at once.  As long as it
goes on it may take a response as well, and a task whose query ends may send one, also if
the query has only ended because the request was given up.  So everything that may still
be sent may still be filed (`exists_filed_of_maySend`).  Nothing more is filed in any order
of the events only if the gatherer has stopped or nothing is left to be sent
(`filed_after_cancel`).
-/

namespace SeriesQuery.FanOut

variable {f : FanOut} {s t : State}

theorem afterAll_cons {e : Event} (h : f.after? s e = some t) (es : List Event) :
    f.afterAll s (e :: es) = f.afterAll t es := by
  simp [afterAll, h]

theorem afterAll_append (es es' : List Event) :
    f.afterAll s (es ++ es') = f.afterAll (f.afterAll s es) es' := by
  simp [afterAll]

/-! ## A gatherer that has stopped -/

theorem Move.results_of_stopped (h : f.Move s t) (hstopped : s.gatherer ≠ .gathering) :
    t.results = s.results ∧ t.gatherer ≠ .gathering := by
  cases h with
  | receive hgatherer => exact absurd hgatherer hstopped
  | begin | finish | send | drop | cancel | elapse => exact ⟨rfl, hstopped⟩
  | desert | stop | expire => exact ⟨rfl, nofun⟩

/-- What every move keeps of a state, all events keep. -/
theorem afterAll_keeps {P : State → Prop} (hmove : ∀ s t, P s → f.Move s t → P t) (h : P s)
    (es : List Event) : P (f.afterAll s es) := by
  induction es generalizing s with
  | nil => exact h
  | cons e es ih =>
    show P (f.afterAll ((f.after? s e).getD s) es)
    cases he : f.after? s e with
    | none => exact ih h
    | some t => exact ih (hmove s t h (move_of_after? he))

theorem results_afterAll_of_stopped (hstopped : s.gatherer ≠ .gathering) (es : List Event) :
    (f.afterAll s es).results = s.results := by
  have hkeeps : (f.afterAll s es).results = s.results ∧
      (f.afterAll s es).gatherer ≠ .gathering := by
    refine afterAll_keeps (P := fun t => t.results = s.results ∧ t.gatherer ≠ .gathering) ?_
      ⟨rfl, hstopped⟩ es
    rintro t u ⟨hresults, hstopped⟩ h
    exact ⟨(h.results_of_stopped hstopped).1.trans hresults, (h.results_of_stopped hstopped).2⟩
  exact hkeeps.1

/-! ## What may still be sent -/

/-- A response that a task may still send. -/
inductive MaySend (f : FanOut) (q : QueryRequest) : Task → DataResponse → Prop where
  | idle {noticed : Bool} {output : QueryOutput}
      (h : (f.runOf noticed q).output = .done output) : MaySend f q .idle (.ofOutput output)
  | working {noticed : Bool} {output : QueryOutput}
      (h : (f.runOf noticed q).output = .done output) : MaySend f q .working (.ofOutput output)
  | finished (r : DataResponse) : MaySend f q (.finished r) r

/-- No response is under way, and no task may send one. -/
structure Exhausted (f : FanOut) (s : State) : Prop where
  channel : s.channel = []
  tasks : ∀ (index : Nat) (q : QueryRequest) (task : Task) (r : DataResponse),
    f.requests[index]? = some q → s.tasks[index]? = some task → ¬ f.MaySend q task r

theorem Exhausted.set_task (hs : f.Exhausted s) {index : Nat} {q : QueryRequest} {task : Task}
    (hq : f.requests[index]? = some q) (htask : ∀ r, ¬ f.MaySend q task r)
    (executed : List String) :
    f.Exhausted { s with tasks := s.tasks.set index task, executed } := by
  refine ⟨hs.channel, ?_⟩
  intro i q' task' r hq' ht'
  rw [List.getElem?_set] at ht'
  by_cases hi : index = i
  · subst hi
    cases hq.symm.trans hq'
    rw [if_pos rfl] at ht'
    split at ht'
    · cases ht'
      exact htask r
    · cases ht'
  · rw [if_neg hi] at ht'
    exact hs.tasks i q' task' r hq' ht'

/-- Nothing comes of a state in which nothing is left to be sent. -/
theorem Move.exhausted (hs : f.Exhausted s) (h : f.Move s t) :
    f.Exhausted t ∧ t.results = s.results := by
  cases h with
  | begin hq ht =>
    refine ⟨hs.set_task hq ?_ _, rfl⟩
    rintro r ⟨⟩
    next h => exact hs.tasks _ _ _ _ hq ht (.idle h)
  | finish hq ht _ houtput => exact absurd (.working houtput) (hs.tasks _ _ _ _ hq ht)
  | send hq ht => exact absurd (.finished _) (hs.tasks _ _ _ _ hq ht)
  | drop hq ht => exact absurd (.finished _) (hs.tasks _ _ _ _ hq ht)
  | receive _ hchannel => cases hs.channel.symm.trans hchannel
  | desert | stop | expire | cancel | elapse => exact ⟨⟨hs.channel, hs.tasks⟩, rfl⟩

theorem results_afterAll_of_exhausted (hs : f.Exhausted s) (es : List Event) :
    (f.afterAll s es).results = s.results := by
  have hkeeps : f.Exhausted (f.afterAll s es) ∧ (f.afterAll s es).results = s.results := by
    refine afterAll_keeps (P := fun t => f.Exhausted t ∧ t.results = s.results) ?_ ⟨hs, rfl⟩ es
    rintro t u ⟨ht, hresults⟩ h
    exact ⟨(h.exhausted ht).1, (h.exhausted ht).2.trans hresults⟩
  exact hkeeps.2

/-- The events after which a task has sent a response. -/
structure Sends (f : FanOut) (s : State) (m : Message) (es : List Event) : Prop where
  channel : m ∈ (f.afterAll s es).channel
  results : (f.afterAll s es).results = s.results
  gatherer : (f.afterAll s es).gatherer = s.gatherer

theorem Sends.cons {m : Message} {e : Event} {es : List Event} (h : f.Sends t m es)
    (he : f.after? s e = some t) (hresults : t.results = s.results)
    (hgatherer : t.gatherer = s.gatherer) : f.Sends s m (e :: es) := by
  refine ⟨?_, ?_, ?_⟩ <;> rw [afterAll_cons he]
  · exact h.channel
  · exact h.results.trans hresults
  · exact h.gatherer.trans hgatherer

theorem sends_of_finished (hs : f.Counted s) {index : Nat} {q : QueryRequest}
    {r : DataResponse} (hq : f.requests[index]? = some q)
    (ht : s.tasks[index]? = some (.finished r)) : f.Sends s (q.refId, r) [.send index] := by
  have hsend : f.after? s (.send index) = some { s with
      tasks := s.tasks.set index .sent
      channel := s.channel ++ [(q.refId, r)] } := by
    simp [after?, afterTaskAt?, afterTask?, hq, ht, hs.room hq ht]
  exact Sends.cons ⟨by simp [afterAll], rfl, rfl⟩ hsend rfl rfl

theorem exists_sends_of_working (hids : (f.requests.map QueryRequest.refId).Nodup)
    (hs : f.Reachable s) (hcancelled : s.cancelled = true) {index : Nat} {q : QueryRequest}
    {noticed : Bool} {output : QueryOutput} (hq : f.requests[index]? = some q)
    (ht : s.tasks[index]? = some .working)
    (houtput : (f.runOf noticed q).output = .done output) :
    ∃ es, f.Sends s (q.refId, .ofOutput output) es := by
  have hfinish : f.after? s (.finish index noticed) =
      some { s with tasks := s.tasks.set index (.finished (.ofOutput output)) } := by
    simp [after?, afterTaskAt?, afterTask?, hq, ht, houtput, State.givenUp, hcancelled]
  have hlt := (List.getElem?_eq_some_iff.mp ht).1
  have hfinished : (s.tasks.set index (.finished (.ofOutput output)))[index]? =
      some (.finished (.ofOutput output)) := List.getElem?_set_self hlt
  have hsends := sends_of_finished ((hs.step _ hfinish).counted hids) hq hfinished
  exact ⟨_, hsends.cons hfinish rfl rfl⟩

/-- What may still be sent is sent after some events. -/
theorem exists_sends (hids : (f.requests.map QueryRequest.refId).Nodup) (hs : f.Reachable s)
    (hcancelled : s.cancelled = true) {index : Nat} {q : QueryRequest} {task : Task}
    {r : DataResponse} (hq : f.requests[index]? = some q) (ht : s.tasks[index]? = some task)
    (hmay : f.MaySend q task r) : ∃ es, f.Sends s (q.refId, r) es := by
  cases hmay with
  | @idle noticed output houtput =>
    have hbegin : f.after? s (.begin index) = some { s with
        tasks := s.tasks.set index .working
        executed := s.executed ++ (f.runOf s.givenUp q).executed } := by
      simp [after?, afterTaskAt?, afterTask?, hq, ht]
    have hlt := (List.getElem?_eq_some_iff.mp ht).1
    obtain ⟨es, hsends⟩ := exists_sends_of_working hids (hs.step _ hbegin) hcancelled hq
      (List.getElem?_set_self hlt) houtput
    exact ⟨_, hsends.cons hbegin rfl rfl⟩
  | working houtput => exact exists_sends_of_working hids hs hcancelled hq ht houtput
  | finished r => exact ⟨_, sends_of_finished (hs.counted hids) hq ht⟩

/-! ## What may still be filed -/

/-- There are no more responses than queries. -/
theorem Counted.channel_add_received_le (hs : f.Counted s) :
    s.channel.length + s.received ≤ f.requests.length := by
  have hle := (f.sentIds_sublist s).length_le
  rwa [← hs.ids.length_eq, List.length_append, List.length_map, List.length_map,
    ← hs.received] at hle

theorem after?_receive {m : Message} {rest : List Message} (hgatherer : s.gatherer = .gathering)
    (hchannel : s.channel = m :: rest) : f.after? s .receive = some (f.file s m rest) := by
  simp [after?, hgatherer, hchannel]

/-- A gatherer that goes on may file every response under way. -/
theorem exists_filed (hids : (f.requests.map QueryRequest.refId).Nodup) (hs : f.Reachable s)
    (hgatherer : s.gatherer = .gathering) {m : Message} (hm : m ∈ s.channel) :
    ∃ es, (f.afterAll s es).results.find? m.1 = some m.2 := by
  obtain ⟨before, rest, hchannel⟩ := List.append_of_mem hm
  clear hm
  induction before generalizing s with
  | nil =>
    refine ⟨[.receive], ?_⟩
    rw [afterAll_cons (after?_receive hgatherer hchannel)]
    exact SortedMap.find?_insert _ _ _
  | cons m₀ before ih =>
    have hreceive := after?_receive (f := f) hgatherer hchannel
    -- Two responses are under way, so the gatherer is not complete after the first.
    have hgoes : (f.file s m₀ (before ++ m :: rest)).gatherer = .gathering := by
      have hle := (hs.counted hids).channel_add_received_le
      rw [hchannel] at hle
      simp only [List.cons_append, List.length_cons, List.length_append] at hle
      exact if_pos (by omega)
    obtain ⟨es, hfind⟩ := ih (hs.step _ hreceive) hgoes rfl
    exact ⟨.receive :: es, by rwa [afterAll_cons hreceive]⟩

/-- A query whose response is under way has nothing filed yet. -/
theorem find?_of_mem_channel (hids : (f.requests.map QueryRequest.refId).Nodup)
    (hs : f.Counted s) {m : Message} (hm : m ∈ s.channel) : s.results.find? m.1 = none := by
  cases hfind : s.results.find? m.1 with
  | none => rfl
  | some r =>
    have hkey : m.1 ∈ s.results.keys := SortedMap.mem_keys_iff.mpr ⟨r, hfind⟩
    have hdisjoint := (List.nodup_append.mp (hs.nodup hids)).2.2
    exact absurd rfl (hdisjoint _ (List.mem_map_of_mem hm) _ hkey)

/-- What may still be sent may still be filed, as long as the gatherer goes on. -/
theorem exists_filed_of_maySend (hids : (f.requests.map QueryRequest.refId).Nodup)
    (hs : f.Reachable s) (hcancelled : s.cancelled = true)
    (hgatherer : s.gatherer = .gathering) {index : Nat} {q : QueryRequest} {task : Task}
    {r : DataResponse} (hq : f.requests[index]? = some q) (ht : s.tasks[index]? = some task)
    (hmay : f.MaySend q task r) :
    s.results.find? q.refId = none ∧
      ∃ es, (f.afterAll s es).results.find? q.refId = some r := by
  obtain ⟨es, hchannel, hresults, hgoes⟩ := exists_sends hids hs hcancelled hq ht hmay
  have hsent := reachable_afterAll hs es
  refine ⟨?_, ?_⟩
  · rw [← hresults]
    exact find?_of_mem_channel hids (hsent.counted hids) hchannel
  · obtain ⟨es', hfind⟩ := exists_filed hids hsent (hgoes.trans hgatherer) hchannel
    exact ⟨es ++ es', by rwa [afterAll_append]⟩

/-- Nothing more is filed in any order of the events exactly if the gatherer has stopped or
nothing is left to be sent. -/
theorem results_stay_iff (hids : (f.requests.map QueryRequest.refId).Nodup)
    (hs : f.Reachable s) (hcancelled : s.cancelled = true) :
    (∀ es, (f.afterAll s es).results = s.results) ↔
      s.gatherer ≠ .gathering ∨ f.Exhausted s := by
  constructor
  · intro hstay
    by_contra hnot
    obtain ⟨hgatherer, hleft⟩ := not_or.mp hnot
    rw [not_not] at hgatherer
    refine hleft ⟨?_, ?_⟩
    · by_contra hne
      obtain ⟨m, hm⟩ := List.exists_mem_of_ne_nil _ hne
      obtain ⟨es, hfind⟩ := exists_filed hids hs hgatherer hm
      rw [hstay es, find?_of_mem_channel hids (hs.counted hids) hm] at hfind
      cases hfind
    · intro index q task r hq ht hmay
      obtain ⟨hnone, es, hfind⟩ :=
        exists_filed_of_maySend hids hs hcancelled hgatherer hq ht hmay
      rw [hstay es, hnone] at hfind
      cases hfind
  · rintro (hstopped | hexhausted)
    · exact results_afterAll_of_stopped hstopped
    · exact results_afterAll_of_exhausted hexhausted

theorem after?_stop (hgatherer : s.gatherer = .gathering) (hcancelled : s.cancelled = true) :
    f.after? s .stop = some { s with gatherer := .cancelled } := by
  simp [after?, hgatherer, hcancelled]

/-- What is filed after a request was given up, in any order of the events.  The responses
filed before stay, and each that is added is one of its own query.  None is added in any
order exactly if the gatherer has stopped or nothing is left to be sent.  Before that it may
stop without another response, but every response that may still be sent may also be filed,
that of a query which ends because the request was given up among them. -/
theorem filed_after_cancel (f : FanOut) (hids : (f.requests.map QueryRequest.refId).Nodup)
    (s : State) (hs : f.Reachable s) (hcancelled : s.cancelled = true) :
    (∀ es id r, s.results.find? id = some r → (f.afterAll s es).results.find? id = some r) ∧
      (∀ es id r, (f.afterAll s es).results.find? id = some r →
        ∃ q ∈ f.requests, q.refId = id ∧ f.Answers true q r) ∧
      ((∀ es, (f.afterAll s es).results = s.results) ↔
        s.gatherer ≠ .gathering ∨ f.Exhausted s) ∧
      (s.gatherer = .gathering →
        (∃ t, f.after? s .stop = some t ∧ ∀ es, (f.afterAll t es).results = s.results) ∧
          ∀ (index : Nat) (q : QueryRequest) (task : Task) (r : DataResponse),
            f.requests[index]? = some q → s.tasks[index]? = some task → f.MaySend q task r →
              s.results.find? q.refId = none ∧
                ∃ es, (f.afterAll s es).results.find? q.refId = some r) := by
  refine ⟨?_, ?_, results_stay_iff hids hs hcancelled, ?_⟩
  · intro es id r hfind
    exact find?_results_afterAll hids hs hfind es
  · intro es id r hfind
    obtain ⟨q, hq, hid, hr⟩ := (reachable_afterAll hs es).attributed.results id r hfind
    exact ⟨q, hq, hid, hr.mono fun _ => rfl⟩
  · intro hgatherer
    refine ⟨⟨_, after?_stop hgatherer hcancelled, ?_⟩, ?_⟩
    · intro es
      exact results_afterAll_of_stopped (s := { s with gatherer := .cancelled }) nofun es
    · intro index q task r hq ht hmay
      exact exists_filed_of_maySend hids hs hcancelled hgatherer hq ht hmay

/-- A query whose executor waits until the request is given up. -/
def held : FanOut where
  requests := [QueryRequest.oneColumn]
  executor := { answer := fun _ => .waiting }
  dialect := .snowflake

/-- The query has begun, and then the request is given up. -/
def heldAndCancelled : State := held.afterAll held.start [.begin 0, .cancel]

/-- The executor notices, and the gatherer takes the response that comes of it. -/
def lateAnswer : List Event := [.finish 0 true, .send 0, .receive]

/-- Something is left to be sent. -/
theorem filed_after_cancel_held : heldAndCancelled.gatherer = .gathering ∧
    ¬ held.Exhausted heldAndCancelled := by
  have hfiled := filed_after_cancel held (by decide) heldAndCancelled
    (reachable_afterAll .start _) (by decide +kernel)
  refine ⟨by decide +kernel, ?_⟩
  intro hexhausted
  have hstay := hfiled.2.2.1.mpr (.inr hexhausted) lateAnswer
  have hnot : (held.afterAll heldAndCancelled lateAnswer).results ≠ heldAndCancelled.results := by
    decide +kernel
  exact hnot hstay

/-- The query ends because the request was given up, and what it says then is filed. -/
theorem held_files_cancellation : heldAndCancelled.cancelled = true ∧
    heldAndCancelled.results = .empty ∧
      ((held.afterAll heldAndCancelled lateAnswer).results.find? "A").bind DataResponse.error =
        some ⟨400, .execution,
          "query execution: failed to query [SELECT v]: Query was cancelled", none⟩ := by
  refine ⟨?_, ?_, ?_⟩ <;> decide +kernel

end SeriesQuery.FanOut
